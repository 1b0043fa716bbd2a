import PrivaCloud.AgentRunner.ScheduledRuns.Schedules
import PrivaCloud.Framework.Run

/-!
# Edits of scheduled jobs

An update reads the job, prepares a whole definition and writes it back; pauses and resumes write the
status. A fire reads the job and dispatches what it has read.
-/

namespace PrivaCloud.AgentRunner.Jobs

open Framework DataPlane

/-- `ScheduledRunRequest` -/
structure RunFrame where
  jobId : String
  jobName : String
  jobConfig : JobConfig
  model : Option String

def buildFrame (job : ScheduledJobDefinition) : Option RunFrame :=
  match ScheduledJobDefinition.validConfig job.prompt job.model job.jobConfig with
  | none | some (.toolRetry _) => none
  | some config => some { jobId := job.id, jobName := job.name, jobConfig := config, model := job.model }

/-- `req.model or cfg.model` of an agent run -/
def RunFrame.runModel (frame : RunFrame) : Option String :=
  (truthy frame.model).or (truthy (configModel frame.jobConfig))

inductive EditCause
  | update (req : UpdateJobRequest)
  | toolUpdate (args : JobArgs) (usable : Bool)
  | status (status : JobStatus)

def EditCause.apply (now : IsoTime) (job : ScheduledJobDefinition) : EditCause → Option ScheduledJobDefinition
  | .update req => some (req.apply job now)
  | .toolUpdate args usable => args.apply job usable now
  | .status st => some { job with status := st, updatedAt := now }

structure JobEdit where
  cause : EditCause
  before : ScheduledJobDefinition
  after : ScheduledJobDefinition

/-- A run that has been dispatched, and the job as it was stored then. -/
structure JobRun where
  frame : RunFrame
  stored : Option ScheduledJobDefinition

inductive EditCall
  | new
  /-- the definition is prepared -/
  | editing (cause : EditCause) (updated : ScheduledJobDefinition)
  | settingStatus (jobId : String) (status : JobStatus)
  | deleting (jobId : String)
  /-- `fire` has read the job -/
  | fired (job : ScheduledJobDefinition)
  | done

structure JobSystem where
  store : Store
  calls : Nat → EditCall := fun _ => .new
  log : List JobEdit := []
  runs : List JobRun := []

inductive JobEvent
  | update (c : Nat) (accountId jobId : String) (req : UpdateJobRequest) (now : IsoTime)
  | toolUpdate (c : Nat) (accountId needle : String) (args : JobArgs) (usable : Bool) (now : IsoTime)
  | setStatus (c : Nat) (accountId jobId : String) (status : JobStatus)
  | delete (c : Nat) (accountId jobId : String)
  | toolDelete (c : Nat) (accountId needle : String)
  /-- the call on the data plane -/
  | write (c : Nat) (now : IsoTime)
  | fire (c : Nat) (jobId : String) (manual : Bool)
  | dispatch (c : Nat)
  /-- a claim is lost, or the run is skipped -/
  | drop (c : Nat)

namespace JobSystem

variable (env : JobEnv) (s : JobSystem)

def setCall (c : Nat) (call : EditCall) : JobSystem := { s with calls := Function.update s.calls c call }

/-- A call begins with what it has read, if there is something. -/
def start (c : Nat) (call : Option EditCall) : Option JobSystem :=
  match s.calls c with
  | .new => some (s.setCall c (call.getD .done))
  | _ => none

def record (cause : EditCause) (jobId : String) (store : Store) : JobSystem :=
  match SchedulerService.getJob s.store jobId, SchedulerService.getJob store jobId with
  | some before, some after => { s with store := store, log := s.log ++ [⟨cause, before, after⟩] }
  | _, _ => { s with store := store }

def setJobStatus (store : Store) (jobId : String) (status : JobStatus) (now : IsoTime) : Store :=
  store.jobUpdate jobId (fun row => { row with status := status, updatedAt := now }) fun row => Eq.refl row.jobId

def step : JobEvent → Option JobSystem
  | .update c accountId jobId req now => s.start c <| (ownedJob s.store accountId jobId).bind fun job =>
    let updated := req.apply job now
    if (env.library.buildTrigger updated.trigger updated.timezone none).isNone then none
    else some (.editing (.update req) updated)
  | .toolUpdate c accountId needle args usable now =>
    s.start c <| (findJob env s.store accountId needle).bind fun job =>
      (args.apply job usable now).map (.editing (.toolUpdate args usable))
  | .setStatus c accountId jobId status =>
    s.start c <| (ownedJob s.store accountId jobId).map fun job => .settingStatus job.id status
  | .delete c accountId jobId =>
    s.start c <| (ownedJob s.store accountId jobId).map fun job => .deleting job.id
  | .toolDelete c accountId needle =>
    s.start c <| (findJob env s.store accountId needle).map fun job => .deleting job.id
  | .write c now =>
    match s.calls c with
    | .editing cause updated =>
      some ((s.record cause updated.id (SchedulerService.updateJob s.store updated.id updated now).2).setCall
        c .done)
    | .settingStatus jobId status =>
      some ((s.record (.status status) jobId (setJobStatus s.store jobId status now)).setCall c .done)
    | .deleting jobId => some ({ s with store := s.store.jobDelete jobId }.setCall c .done)
    | _ => none
  | .fire c jobId manual => s.start c <| (SchedulerService.getJob s.store jobId).bind fun job =>
    if manual = false ∧ job.status ≠ .active then none else some (.fired job)
  | .dispatch c =>
    match s.calls c with
    | .fired job =>
      match buildFrame job with
      | none => some (s.setCall c .done)
      | some frame =>
        let stored := SchedulerService.getJob s.store job.id
        some ({ s with runs := ⟨frame, stored⟩ :: s.runs }.setCall c .done)
    | _ => none
  | .drop c =>
    match s.calls c with
    | .fired _ => some (s.setCall c .done)
    | _ => none

end JobSystem

/-- `model` of the job, or that of its configuration -/
def jobModel (job : ScheduledJobDefinition) : Option String :=
  (truthy job.model).or (truthy (job.jobConfig.bind configModel))

/-- `callback` of a configuration -/
def configCallback : JobConfig → Bool
  | .agentRun c => c.callback
  | .httpCall c => c.callback
  | .userScript c => c.callback
  | .toolRetry _ => false

/-- What an update of the user API leaves, and what it sets. -/
structure UpdateRight (req : UpdateJobRequest) (before after : ScheduledJobDefinition) : Prop where
  name : after.name = req.name.getD before.name
  trigger : after.trigger = req.trigger.getD before.trigger
  timezone : after.timezone = req.timezone.getD before.timezone
  status : after.status = req.status.getD before.status
  model : after.model = req.model.or before.model
  prompt : req.prompt = none → (∀ c, req.jobConfig ≠ some (.agentRun c)) → after.prompt = before.prompt
  config : req.jobConfig = none → req.prompt = none → after.jobConfig = before.jobConfig
  setConfig : ∀ config, req.jobConfig = some config → after.jobConfig = some config
  promptOnly : req.jobConfig = none → ∀ prompt, req.prompt = some prompt →
    ∀ config, before.jobConfig = some config → after.jobConfig = some (setPrompt prompt config)
  setPrompt : ∀ prompt, req.prompt = some prompt → ∀ c, after.jobConfig = some (.agentRun c) →
    after.prompt = prompt ∧ c.prompt = prompt
  setModel : ∀ model, req.model = some model → model ≠ "" → jobModel after = some model
  setConfigModel : req.model = none → ∀ c, req.jobConfig = some (.agentRun c) →
    ∀ model, truthy c.model = some model → jobModel after = some model
  keepsModel : req.model = none → req.jobConfig = none → jobModel after = jobModel before

namespace JobArgs

variable (args : JobArgs)

def changesType (job : ScheduledJobDefinition) : Bool :=
  match args.jobType with
  | none => false
  | some type => decide (job.jobConfig.map JobConfig.jobType ≠ some type)

def namesConfig : Bool :=
  args.jobType.isSome || args.prompt.isSome || args.model.isSome || args.url.isSome || args.method.isSome ||
    args.headers.isSome || args.body.isSome || args.script.isSome || args.filePath.isSome ||
    args.python.isSome || args.inlined.isSome || args.timeoutSeconds.isSome || args.maxTurns.isSome ||
    args.callback.isSome || args.feishuCallback.isSome

def namesScript : Bool := args.script.isSome || args.filePath.isSome || args.inlined.isSome

/-- The settings of a configuration that are not named stay. -/
def Keeps : JobConfig → JobConfig → Prop
  | .agentRun c, .agentRun c' =>
    (args.prompt = none → c'.prompt = c.prompt) ∧ (args.model = none → c'.model = c.model) ∧
      (args.timeoutSeconds = none → c'.timeoutSeconds = c.timeoutSeconds) ∧
      (args.maxTurns = none → c'.maxTurns = c.maxTurns)
  | .httpCall c, .httpCall c' =>
    (args.method = none → c'.method = c.method) ∧ (args.url = none → c'.url = c.url) ∧
      (args.headers = none → c'.headers = c.headers) ∧ (args.body = none → c'.body = c.body) ∧
      (args.timeoutSeconds = none → c'.timeoutSeconds = c.timeoutSeconds)
  | .userScript c, .userScript c' =>
    (args.python = none → c'.python = c.python) ∧
      (args.timeoutSeconds = none → c'.timeoutSeconds = c.timeoutSeconds) ∧
      (args.namesScript = false → c'.inlined = c.inlined ∧ c'.filePath = c.filePath ∧ c'.script = c.script)
  | _, _ => False

end JobArgs

/-- What an update of the tool leaves, and what it sets. -/
structure ToolUpdateRight (args : JobArgs) (before after : ScheduledJobDefinition) : Prop where
  name : after.name = args.name.getD before.name
  trigger : args.namesSchedule = false → after.trigger = before.trigger
  timezone : after.timezone = args.timezone.getD before.timezone
  status : after.status = before.status
  prompt : args.changesType before = false → args.prompt = none → after.prompt = before.prompt
  model : args.changesType before = false → args.model = none → after.model = before.model
  config : args.namesConfig = false → after.jobConfig = before.jobConfig
  keeps : args.changesType before = false → ∀ config, before.jobConfig = some config →
    ∃ config', after.jobConfig = some config' ∧ args.Keeps config config'
  callback : args.feishuCallback = none → args.callback = none →
    (after.jobConfig.map configCallback).getD false = (before.jobConfig.map configCallback).getD false
  setPrompt : ∀ prompt, args.prompt = some prompt → ∀ c, after.jobConfig = some (.agentRun c) →
    after.prompt = prompt ∧ c.prompt = prompt
  setModel : ∀ model, args.model = some model → model ≠ "" → ∀ c, after.jobConfig = some (.agentRun c) →
    jobModel after = some model
  keepsModel : args.changesType before = false → args.model = none → jobModel after = jobModel before

def JobEdit.Right (e : JobEdit) : Prop :=
  e.after.id = e.before.id ∧ e.after.createdAt = e.before.createdAt ∧ match e.cause with
    | .update req => UpdateRight req e.before e.after
    | .toolUpdate args _ => ToolUpdateRight args e.before e.after
    | .status status => e.after = { e.before with status := status, updatedAt := e.after.updatedAt }

/-- A resume, or an update that names the status. -/
def EditCause.activates : EditCause → Bool
  | .update req => req.status = some .active
  | .toolUpdate _ _ => false
  | .status st => st = .active

structure EditsRight (s : JobSystem) : Prop where
  edits : ∀ e ∈ s.log, e.Right
  paused : ∀ (i : Nat) (e : JobEdit), s.log[i]? = some e → e.after.status = .paused →
    ∀ job, SchedulerService.getJob s.store e.after.id = some job → job.status = .active →
      ∃ (j : Nat) (e' : JobEdit), i < j ∧ s.log[j]? = some e' ∧ e'.after.id = e.after.id ∧ e'.cause.activates
  runs : ∀ r ∈ s.runs, ∀ job, r.stored = some job →
    job.jobConfig = some r.frame.jobConfig ∧ r.frame.model = job.model ∧ r.frame.runModel = jobModel job ∧
      ∀ c, r.frame.jobConfig = .agentRun c → c.prompt = job.prompt

def InStep (job : ScheduledJobDefinition) : Prop := ∀ c, job.jobConfig = some (.agentRun c) → c.prompt = job.prompt

/-- What is stored twice is named once, and the model of a new configuration is not overridden. -/
def UpdateJobRequest.Fits (req : UpdateJobRequest) (job : ScheduledJobDefinition) : Bool :=
  match req.jobConfig with
  | some (.agentRun c) =>
    decide (req.prompt.getD c.prompt = c.prompt) &&
      (req.model.isSome || decide (truthy c.model = none ∨ truthy job.model = none ∨ truthy c.model = truthy job.model))
  | _ => true

/-- The tool leaves what it writes back: the prompt and the model are those of the configuration, or named,
and so on. -/
def JobArgs.Fits (args : JobArgs) (job : ScheduledJobDefinition) : Bool :=
  (args.changesType job ||
    ((args.prompt.isSome || decide (job.prompt = (job.jobConfig.map configPrompt).getD "")) &&
      (args.model.isSome || decide (job.model = job.jobConfig.bind configModel)) &&
      (match job.jobConfig with
        | none => args.namesConfig
        | some (.userScript c) => args.namesScript || (if c.inlined then c.filePath.isNone else c.script.isNone)
        | some _ => true))) &&
    (!args.changesType job || args.feishuCallback.isSome || args.callback.isSome ||
      (job.jobConfig.map configCallback).getD false = false)

def EditCause.Fits : EditCause → ScheduledJobDefinition → Bool
  | .update req, job => req.Fits job
  | .toolUpdate args _, job => args.Fits job
  | .status _, _ => true

namespace JobSystem

/-- An update writes what it would prepare from the job as it is stored now, and fits it; a run is dispatched
with the configuration and the model that are stored. -/
def Careful (s : JobSystem) (e : JobEvent) : Prop :=
  (match e with
  | .write c _ =>
    match s.calls c with
    | .editing cause updated =>
      match SchedulerService.getJob s.store updated.id with
      | none => true
      | some job => decide (cause.apply updated.updatedAt job = some updated) && cause.Fits job
    | _ => true
  | .dispatch c =>
    match s.calls c with
    | .fired read =>
      match SchedulerService.getJob s.store read.id with
      | none => true
      | some job => decide (job.jobConfig = read.jobConfig ∧ job.model = read.model)
    | _ => true
  | _ => true : Bool) = true

instance (s : JobSystem) (e : JobEvent) : Decidable (s.Careful e) := inferInstanceAs (Decidable (_ = true))

end JobSystem

end PrivaCloud.AgentRunner.Jobs
