import Mathlib.Data.List.Infix
import PrivaCloud.DataPlane.SchedulerService
import PrivaCloud.Scheduler.FireEpoch

/-!
# Requests for scheduled jobs

`routers/scheduler_jobs.py` and `scheduled_runs/mcp_tools.py`: the user API and the tools of the agent
create and update the same rows.
-/

namespace PrivaCloud.AgentRunner.Jobs

open DataPlane
open Scheduler (Trigger truncate)

/-- APScheduler, and the instants of stored times. -/
structure TriggerLibrary where
  fromCrontab : (expr timezone : String) → Option Trigger
  /-- `IntervalTrigger` of so many seconds -/
  interval : (seconds : Int) → (startDate : Option ℚ) → Option Trigger
  instant : IsoTime → ℚ

def intervalTotalSeconds (c : IntervalTriggerConfig) : Int :=
  c.weeks * 604800 + c.days * 86400 + c.hours * 3600 + c.minutes * 60 + c.seconds

namespace TriggerLibrary

variable (lib : TriggerLibrary)

/-- `build_trigger` of the user API -/
def buildTrigger (config : TriggerConfig) (timezone : String) (anchor : Option IsoTime) : Option Trigger :=
  match config with
  | .cron expr => lib.fromCrontab expr timezone
  | .interval c =>
    if intervalTotalSeconds c ≤ 0 then none
    else lib.interval (intervalTotalSeconds c) (anchor.map lib.instant)

/-- `build_trigger` of the scheduler engine -/
def engineTrigger (config : TriggerConfig) (timezone : String) (anchor : Option IsoTime) : Option Trigger :=
  match config with
  | .cron expr => lib.fromCrontab expr timezone
  | .interval c => lib.interval (intervalTotalSeconds c) (anchor.map lib.instant)

end TriggerLibrary

structure CreateJobRequest where
  name : String
  prompt : String := ""
  trigger : TriggerConfig
  timezone : String
  status : JobStatus := .active
  model : Option String := none
  jobConfig : Option JobConfig := none

structure UpdateJobRequest where
  name : Option String := none
  prompt : Option String := none
  trigger : Option TriggerConfig := none
  timezone : Option String := none
  status : Option JobStatus := none
  model : Option String := none
  jobConfig : Option JobConfig := none

/-- The definition that `create_job` stores; the configuration is filled in by `_backcompat`. -/
def CreateJobRequest.definition (req : CreateJobRequest) (id : String) (now : IsoTime) :
    ScheduledJobDefinition where
  id := id
  name := req.name
  prompt := req.prompt
  trigger := req.trigger
  timezone := req.timezone
  status := req.status
  model := req.model
  jobConfig := ScheduledJobDefinition.validConfig req.prompt req.model req.jobConfig
  createdAt := now
  updatedAt := now

def setPrompt (prompt : String) : JobConfig → JobConfig
  | .agentRun c => .agentRun { c with prompt := prompt }
  | config => config

def UpdateJobRequest.apply (req : UpdateJobRequest) (job : ScheduledJobDefinition) (now : IsoTime) :
    ScheduledJobDefinition :=
  let job := { job with
    name := req.name.getD job.name
    trigger := req.trigger.getD job.trigger
    timezone := req.timezone.getD job.timezone
    status := req.status.getD job.status
    model := req.model.or job.model
    updatedAt := now }
  match req.jobConfig, req.prompt with
  | some (.agentRun c), _ => { job with jobConfig := some (.agentRun c), prompt := c.prompt }
  | some config, _ => { job with jobConfig := some config }
  | none, some prompt => { job with prompt := prompt, jobConfig := job.jobConfig.map (setPrompt prompt) }
  | none, none => job

inductive TriggerType
  | cron
  | interval

/-- The arguments of `scheduler_create_job` and `scheduler_update_job` that are given. -/
structure JobArgs where
  name : Option String := none
  jobType : Option JobType := none
  triggerType : Option TriggerType := none
  cronExpr : Option String := none
  intervalMinutes : Option ℚ := none
  timezone : Option String := none
  prompt : Option String := none
  model : Option String := none
  url : Option String := none
  method : Option HttpMethod := none
  headers : Option (List (String × String)) := none
  body : Option String := none
  script : Option String := none
  filePath : Option String := none
  /-- `language` is `python`, else `shell` -/
  python : Option Bool := none
  /-- `source` is `inline`, else `file` -/
  inlined : Option Bool := none
  timeoutSeconds : Option ℚ := none
  maxTurns : Option ℚ := none
  /-- a `FeishuCallbackConfig`, or `None` -/
  callback : Option Bool := none
  feishuCallback : Option Bool := none

/-- `x // n` -/
def floorDiv (x : ℚ) (n : Nat) : ℚ := ⌊x / n⌋

/-- `x % n` -/
def floorMod (x : ℚ) (n : Nat) : ℚ := x - ⌊x / n⌋ * n

namespace JobArgs

variable (args : JobArgs)

def namesSchedule : Bool := args.triggerType.isSome || args.cronExpr.isSome || args.intervalMinutes.isSome

/-- `_build_trigger`, with the type of the trigger -/
def triggerOfType (current : Option TriggerConfig) : TriggerType → TriggerConfig
  | .cron =>
    match current with
    | some (.cron expr) => .cron (args.cronExpr.getD expr)
    | _ => .cron (args.cronExpr.getD "0 9 * * *")
  | .interval =>
    match args.intervalMinutes, current with
    | none, some (.interval c) => .interval c
    | minutes, _ => .interval
        { hours := truncate (floorDiv (minutes.getD 60) 60)
          minutes := truncate (floorMod (minutes.getD 60) 60) }

def typeOfTrigger (current : Option TriggerConfig) : TriggerType :=
  match args.triggerType, args.cronExpr, current with
  | some type, _, _ => type
  | none, some _, _ => .cron
  | none, none, some (.cron _) => .cron
  | none, none, _ => .interval

def buildTrigger (current : Option TriggerConfig) : TriggerConfig :=
  match current, args.namesSchedule with
  | some trigger, false => trigger
  | _, _ => args.triggerOfType current (args.typeOfTrigger current)

/-- `_build_job_config`, which raises on any other type -/
def buildJobConfig (current : Option JobConfig) : Option JobConfig :=
  match (args.jobType.or (current.map JobConfig.jobType)).getD .agentRun with
  | .agentRun =>
    let old : Option AgentRunConfig := match current with
      | some (.agentRun c) => some c
      | _ => none
    some (.agentRun
      { prompt := args.prompt.getD (old.elim "" (·.prompt))
        model := args.model.or (old.bind (·.model))
        callback := args.callback.getD (old.elim false (·.callback))
        timeoutSeconds := args.timeoutSeconds.elim (old.elim 1800 (·.timeoutSeconds)) truncate
        maxTurns := args.maxTurns.elim (old.elim 50 (·.maxTurns)) truncate })
  | .httpCall =>
    let old : Option HttpCallConfig := match current with
      | some (.httpCall c) => some c
      | _ => none
    some (.httpCall
      { method := args.method.getD (old.elim .get (·.method))
        url := args.url.getD (old.elim "" (·.url))
        callback := args.callback.getD (old.elim false (·.callback))
        headers := args.headers.getD (old.elim [] (·.headers))
        body := args.body.or (old.bind (·.body))
        timeoutSeconds := args.timeoutSeconds.elim (old.elim 30 (·.timeoutSeconds)) truncate })
  | .userScript =>
    let old : Option UserScriptConfig := match current with
      | some (.userScript c) => some c
      | _ => none
    let inlined := if args.script.isSome then true else if args.filePath.isSome then false
      else args.inlined.getD (old.elim false (·.inlined))
    some (.userScript
      { python := args.python.getD (old.elim true (·.python))
        inlined := inlined
        callback := args.callback.getD (old.elim false (·.callback))
        filePath := if inlined then none else args.filePath.or (old.bind (·.filePath))
        script := if inlined then args.script.or (old.bind (·.script)) else none
        timeoutSeconds := args.timeoutSeconds.elim (old.elim 300 (·.timeoutSeconds)) truncate })
  | .toolRetry => none

end JobArgs

def setCallback (callback : Bool) : JobConfig → JobConfig
  | .agentRun c => .agentRun { c with callback := callback }
  | .httpCall c => .httpCall { c with callback := callback }
  | .userScript c => .userScript { c with callback := callback }
  | config => config

def configPrompt : JobConfig → String
  | .agentRun c => c.prompt
  | _ => ""

def configModel : JobConfig → Option String
  | .agentRun c => c.model
  | _ => none

/-- `create_job`; `usable` says that the account has a usable bound owner. -/
def JobArgs.definition (args : JobArgs) (id : String) (usable : Bool) (now : IsoTime) :
    Option ScheduledJobDefinition :=
  match args.name, args.buildJobConfig none with
  | some name, some config => some
      { id := id
        name := name
        prompt := configPrompt config
        trigger := args.buildTrigger none
        timezone := match args.timezone with
          | some timezone => if timezone = "" then "Asia/Shanghai" else timezone
          | none => "Asia/Shanghai"
        status := .active
        jobConfig := some (setCallback (args.feishuCallback.getD false && usable) config)
        createdAt := now
        updatedAt := now }
  | _, _ => none

/-- `update_job` -/
def JobArgs.apply (args : JobArgs) (job : ScheduledJobDefinition) (usable : Bool) (now : IsoTime) :
    Option ScheduledJobDefinition :=
  (args.buildJobConfig job.jobConfig).map fun built =>
    let config := match args.feishuCallback with
      | some requested => setCallback (requested && usable) built
      | none => built
    { job with
      name := args.name.getD job.name
      trigger := args.buildTrigger (some job.trigger)
      timezone := args.timezone.getD job.timezone
      jobConfig := some config
      prompt := configPrompt config
      model := configModel config
      updatedAt := now }

/-- What the requests rely on: the library, and `str.lower`. -/
structure JobEnv where
  library : TriggerLibrary
  lower : String → String

def listJobs (s : Store) (accountId : String) : List ScheduledJobDefinition :=
  (s.jobListByAccount accountId).map SchedulerService.toJob

def ownedJob (s : Store) (accountId jobId : String) : Option ScheduledJobDefinition :=
  (listJobs s accountId).find? (·.id = jobId)

/-- `_find_job`: by id, by name, by a part of the name -/
def findJob (env : JobEnv) (s : Store) (accountId needle : String) : Option ScheduledJobDefinition :=
  let jobs := listJobs s accountId
  ((jobs.find? (·.id = needle)).or (jobs.find? fun j => env.lower j.name = env.lower needle)).or
    (jobs.find? fun j => (env.lower needle).toList <:+: (env.lower j.name).toList)

inductive JobRequest
  | create (id : String) (req : CreateJobRequest)
  | update (jobId : String) (req : UpdateJobRequest)
  | toolCreate (id : String) (args : JobArgs) (usable : Bool)
  | toolUpdate (needle : String) (args : JobArgs) (usable : Bool)

/-- The job that a request returns, if it succeeds, and the store after it. -/
def JobRequest.handle (env : JobEnv) (s : Store) (accountId : String) (now : IsoTime) :
    JobRequest → Option ScheduledJobDefinition × Store
  | .create id req =>
    if (env.library.buildTrigger req.trigger req.timezone none).isNone then (none, s)
    else
      let result := SchedulerService.createJob s accountId (req.definition id now) now
      (result.1.join, result.2)
  | .update jobId req =>
    match ownedJob s accountId jobId with
    | none => (none, s)
    | some job =>
      let updated := req.apply job now
      if (env.library.buildTrigger updated.trigger updated.timezone none).isNone then (none, s)
      else
        let result := SchedulerService.updateJob s jobId updated now
        (result.1.join, result.2)
  | .toolCreate id args usable =>
    match args.definition id usable now with
    | none => (none, s)
    | some job =>
      let result := SchedulerService.createJob s accountId job now
      (result.1.join, result.2)
  | .toolUpdate needle args usable =>
    match (findJob env s accountId needle).bind fun job => (args.apply job usable now).map (job.id, ·) with
    | none => (none, s)
    | some (jobId, updated) =>
      let result := SchedulerService.updateJob s jobId updated now
      (result.1.join, result.2)

end PrivaCloud.AgentRunner.Jobs
