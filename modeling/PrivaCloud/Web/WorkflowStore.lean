import PrivaCloud.Framework.Dict
import PrivaCloud.Framework.JsonText

/-!
# The workflows of a session

`stores/workflowStore.js`: the card of a workflow merges what its script declares, what the live events say and what
a stored snapshot has. Phases and agents are rows that are merged by their index.
-/

namespace PrivaCloud.Web

open Framework JsonText

inductive WorkflowStatus
  | pending
  | running
  | completed
  | failed
  | stopped
  deriving DecidableEq

def WorkflowStatus.isTerminal (status : WorkflowStatus) : Bool :=
  status = .completed || status = .failed || status = .stopped

def terminalRawStatuses : List String := ["completed", "failed", "stopped", "killed", "aborted", "cancelled"]

def isTerminalRawStatus (raw : Option String) : Bool := raw.any (· ∈ terminalRawStatuses)

def normalizeStatus (raw : Option String) : WorkflowStatus :=
  if raw = some "failed" then .failed
  else if raw.any (· ∈ ["stopped", "killed", "aborted", "cancelled"]) then .stopped
  else .completed

abbrev Fields := List (String × Value)

def isTruthy : Value → Bool
  | .null => false
  | .bool b => b
  | .num token => token ∉ ["0".toList, "-0".toList]
  | .str text => text ≠ []
  | .arr _ | .obj _ => true

def isFilled (fields : Fields) (key : String) : Bool := (getValue fields key).any isTruthy

structure Phase where
  index : Int
  declaredAgents : Option Nat := none
  fields : Fields := []

structure Agent where
  phaseIndex : Int
  fields : Fields := []

namespace Agent

def hasState (a : Agent) (states : List String) : Bool :=
  match getValue a.fields "state" with
  | some (.str text) => String.ofList text ∈ states
  | _ => false

def isDone (a : Agent) : Bool := a.hasState ["done"]

def isFailed (a : Agent) : Bool := a.hasState ["error", "failed"]

/-- `toolCalls || 0` -/
def toolCalls (a : Agent) : Int :=
  match getValue a.fields "toolCalls" with
  | some (.num token) => (String.ofList token).toInt?.getD 0
  | _ => 0

end Agent

/-- An item of `workflowProgress`, with the fields that it has -/
inductive WorkflowItem
  | phase (index : Int) (fields : Fields)
  | agent (index phaseIndex : Int) (fields : Fields)
  | other

structure Totals where
  tokens : Int := 0
  toolCalls : Int := 0
  durationMs : Int := 0

structure Workflow where
  taskId : Option String := none
  workflowName : Option String := none
  description : Option String := none
  script : Option String := none
  status : WorkflowStatus := .pending
  startedAt : Option Int := none
  endedAt : Option Int := none
  summary : Option String := none
  lastToolName : Option String := none
  totals : Totals := {}
  phases : List Phase := []
  agents : List (Int × Agent) := []
  agentOrder : List Int := []
  completionSource : Option String := none

/-- A phase is changed where it is, and a new one comes last. -/
def setPhase (index : Int) (change : Phase → Phase) : List Phase → List Phase
  | [] => [change { index }]
  | p :: rest => if p.index = index then change p :: rest else p :: setPhase index change rest

def sortPhases (phases : List Phase) : List Phase := phases.insertionSort fun a b => a.index ≤ b.index

/-- The rows as the loop over `workflowProgress` changes them -/
structure Rows where
  phases : List Phase
  agents : List (Int × Agent)
  agentOrder : List Int
  phasesChanged : Bool := false

namespace Rows

def addAgent (rows : Rows) (index phaseIndex : Int) (fields : Fields) : Rows :=
  let kept := ((getValue rows.agents index).map Agent.fields).getD []
  let listed : Bool := rows.phases.any (·.index = phaseIndex)
  { phases := if listed then rows.phases else rows.phases ++ [{ index := phaseIndex }]
    agents := assign rows.agents index { phaseIndex, fields := assignAll kept fields }
    agentOrder := if index ∈ rows.agentOrder then rows.agentOrder else rows.agentOrder ++ [index]
    phasesChanged := rows.phasesChanged || !listed }

def add (rows : Rows) : WorkflowItem → Rows
  | .phase index fields =>
    { rows with
      phases := setPhase index (fun p => { p with fields := assignAll p.fields fields }) rows.phases
      phasesChanged := true }
  | .agent index phaseIndex fields => rows.addAgent index phaseIndex fields
  | .other => rows

end Rows

def Workflow.rows (wf : Workflow) (items : List WorkflowItem) : Rows :=
  items.foldl Rows.add { phases := wf.phases, agents := wf.agents, agentOrder := wf.agentOrder }

structure Tally where
  total : Nat
  done : Nat
  failed : Nat
  deriving DecidableEq

namespace Workflow

variable (wf : Workflow)

/-- `wf.agents[i]` passes a test. -/
def agentIs (p : Agent → Bool) (index : Int) : Bool := (getValue wf.agents index).any p

def tally (indices : List Int) : Tally where
  total := indices.length
  done := indices.countP (wf.agentIs Agent.isDone)
  failed := indices.countP (wf.agentIs Agent.isFailed)

def agentTally : Tally := wf.tally wf.agentOrder

/-- The counts of `phaseRollup` -/
def phaseRollup (phaseIndex : Int) : Tally :=
  wf.tally (wf.agentOrder.filter (wf.agentIs fun a => a.phaseIndex = phaseIndex))

structure AgentTotals where
  done : Nat
  total : Nat

def declared : Nat := (wf.phases.map fun p => p.declaredAgents.getD 0).sum

def workflowAgentTotals : AgentTotals where
  done := wf.agentOrder.countP (wf.agentIs Agent.isDone)
  total := max wf.agentOrder.length wf.declared

end Workflow

structure MetaPhase where
  index : Int
  title : Option String := none
  detail : Option String := none
  agents : Option Nat := none

structure ScriptMeta where
  name : Option String := none
  description : Option String := none
  phases : List MetaPhase := []

def nonempty (text : Option String) : Option String := text.filter (· ≠ "")

namespace MetaPhase

variable (mp : MetaPhase)

def texts : Fields :=
  (mp.title.map fun title => ("title", Value.str title.toList)).toList ++
    (mp.detail.map fun detail => ("detail", Value.str detail.toList)).toList

def gaps (p : Phase) : Fields := mp.texts.filter fun e => isTruthy e.2 && !isFilled p.fields e.1

def fills (p : Phase) : Bool := !(mp.gaps p).isEmpty || (p.declaredAgents.isNone && mp.agents.isSome)

def fill (p : Phase) : Phase :=
  { p with fields := assignAll p.fields (mp.gaps p), declaredAgents := p.declaredAgents.or mp.agents }

end MetaPhase

/-- One phase of the script: a new row, or the gaps of the row that is there -/
def seedPhase (phases : List Phase) (mp : MetaPhase) : List Phase × Bool :=
  match phases.find? (·.index = mp.index) with
  | none => (phases ++ [{ index := mp.index, declaredAgents := mp.agents, fields := mp.texts }], true)
  | some p => if mp.fills p then (setPhase mp.index mp.fill phases, true) else (phases, false)

def seedPhases : List MetaPhase → List Phase → List Phase × Bool
  | [], phases => (phases, false)
  | mp :: rest, phases =>
    let seeded := seedPhase phases mp
    let later := seedPhases rest seeded.1
    (later.1, seeded.2 || later.2)

section Store

variable (parseWorkflowMeta : String → Option ScriptMeta)

def seedFromScript (wf : Workflow) : Workflow :=
  match (nonempty wf.script).bind parseWorkflowMeta with
  | none => wf
  | some script =>
    let named := (nonempty wf.workflowName).isNone && (nonempty script.name).isSome
    let described := (nonempty wf.description).isNone && (nonempty script.description).isSome
    let seeded := seedPhases script.phases wf.phases
    { wf with
      workflowName := if named then script.name else wf.workflowName
      description := if described then script.description else wf.description
      phases := if named || described || seeded.2 then sortPhases seeded.1 else wf.phases }

structure WorkflowStore where
  workflows : List (String × Workflow) := []
  workflowOrder : List String := []
  taskIdIndex : List (String × String) := []

/-- What a seed or `task_started` carries -/
structure Seed where
  taskId : Option String := none
  workflowName : Option String := none
  description : Option String := none
  script : Option String := none
  status : Option WorkflowStatus := none
  startedAt : Option Int := none

def Seed.onto (seed : Seed) (wf : Workflow) : Workflow :=
  { wf with
    taskId := seed.taskId.or wf.taskId
    workflowName := seed.workflowName.or wf.workflowName
    description := seed.description.or wf.description
    script := seed.script.or wf.script
    status := seed.status.getD wf.status
    startedAt := seed.startedAt.or wf.startedAt }

structure Progress where
  taskId : Option String := none
  totalTokens : Option Int := none
  durationMs : Option Int := none
  summary : Option String := none
  lastToolName : Option String := none
  workflowProgress : List WorkflowItem := []

structure Snapshot where
  taskId : Option String := none
  workflowName : Option String := none
  summary : Option String := none
  status : Option String := none
  startTime : Option Int := none
  durationMs : Option Int := none
  totalTokens : Option Int := none
  totalToolCalls : Option Int := none
  workflowProgress : List WorkflowItem := []

namespace WorkflowStore

variable (s : WorkflowStore)

def put (id : String) (wf : Workflow) : WorkflowStore := { s with workflows := assign s.workflows id wf }

def resolveId (toolUseId taskId : Option String) : Option String :=
  match toolUseId.filter fun id => id ≠ "" && (getValue s.workflows id).isSome with
  | some id => some id
  | none => (nonempty taskId).bind fun id => nonempty (getValue s.taskIdIndex id)

def ensureWorkflow (id : String) (seed : Seed) : WorkflowStore :=
  if id = "" then s
  else
    match getValue s.workflows id with
    | some existing =>
      let next := seed.onto existing
      let status := if seed.status = some .pending ∧ existing.status ≠ .pending then existing.status else next.status
      s.put id (seedFromScript parseWorkflowMeta { next with status })
    | none =>
      { s.put id (seedFromScript parseWorkflowMeta (seed.onto {})) with
        workflowOrder := if id ∈ s.workflowOrder then s.workflowOrder else s.workflowOrder ++ [id] }

/-- `isTerminal(base.status) ? base.status : 'running'` -/
def started (status : WorkflowStatus) : WorkflowStatus := if status.isTerminal then status else .running

def applyStart (id : String) (fields : Seed) (now : Int) : WorkflowStore :=
  let s := s.ensureWorkflow parseWorkflowMeta id { status := some .running }
  match getValue s.workflows id with
  | none => s
  | some base =>
    let wf := seedFromScript parseWorkflowMeta
      { fields.onto base with
        startedAt := base.startedAt.or (fields.startedAt.or (some now))
        status := started base.status }
    { s.put id wf with
      taskIdIndex := match nonempty wf.taskId with
        | some taskId => assign s.taskIdIndex taskId id
        | none => s.taskIdIndex }

def indexed (taskId : Option String) (id : String) : List (String × String) :=
  match nonempty taskId with
  | some taskId =>
    if (nonempty (getValue s.taskIdIndex taskId)).isNone then assign s.taskIdIndex taskId id else s.taskIdIndex
  | none => s.taskIdIndex

def applyProgress (id : String) (progress : Progress) : WorkflowStore :=
  if id = "" then s
  else
    let s := s.ensureWorkflow parseWorkflowMeta id { status := some .running }
    match getValue s.workflows id with
    | none => s
    | some base =>
      let rows := base.rows progress.workflowProgress
      let toolCallSum := (rows.agentOrder.map fun i => ((getValue rows.agents i).map Agent.toolCalls).getD 0).sum
      let taskId := base.taskId.or progress.taskId
      let wf :=
        { base with
          taskId
          phases := if rows.phasesChanged then sortPhases rows.phases else base.phases
          agents := rows.agents
          agentOrder := rows.agentOrder
          totals :=
            { tokens := progress.totalTokens.getD base.totals.tokens
              toolCalls := if toolCallSum ≠ 0 then toolCallSum else base.totals.toolCalls
              durationMs := progress.durationMs.getD base.totals.durationMs }
          summary := progress.summary.or base.summary
          lastToolName := progress.lastToolName.or base.lastToolName
          status := started base.status }
      { s.put id wf with taskIdIndex := s.indexed taskId id }

def snapshotEnd (snap : Snapshot) (now : Int) : Int :=
  match snap.startTime.filter (· ≠ 0), snap.durationMs.filter (· ≠ 0) with
  | some startTime, some durationMs => startTime + durationMs
  | _, _ => now

def hydrateFromSnapshot (id : String) (snap : Snapshot) (now : Int) : WorkflowStore :=
  match getValue s.workflows id with
  | none => s
  | some base =>
    if base.status = .running ∧ base.agentOrder ≠ [] then s
    else
      let rows := base.rows snap.workflowProgress
      let terminal := isTerminalRawStatus snap.status
      let taskId := base.taskId.or snap.taskId
      let wf :=
        { base with
          taskId
          workflowName := base.workflowName.or snap.workflowName
          summary := base.summary.or snap.summary
          phases := sortPhases rows.phases
          agents := rows.agents
          agentOrder := rows.agentOrder
          startedAt := base.startedAt.or snap.startTime
          endedAt := base.endedAt.or (if terminal then some (snapshotEnd snap now) else none)
          totals :=
            { tokens := snap.totalTokens.getD base.totals.tokens
              toolCalls := snap.totalToolCalls.getD base.totals.toolCalls
              durationMs := snap.durationMs.getD base.totals.durationMs }
          status := if terminal then normalizeStatus snap.status else base.status
          completionSource := base.completionSource.or (if terminal then some "reload" else none) }
      { s.put id wf with taskIdIndex := s.indexed taskId id }

/-- `markCompletion`; the status is known to be terminal from then on. -/
def markCompletion (idOrTaskId : String) (rawStatus source : Option String) (endedAt : Option Int)
    (summary : Option String) (now : Int) : WorkflowStore :=
  if isTerminalRawStatus rawStatus = false then s
  else
    match s.resolveId (some idOrTaskId) (some idOrTaskId) with
    | none => s
    | some id =>
      match getValue s.workflows id with
      | none => s
      | some base =>
        s.put id
          { base with
            status := normalizeStatus rawStatus
            endedAt := endedAt.or (base.endedAt.or (some now))
            summary := summary.or base.summary
            completionSource := source.or base.completionSource }

def finalStatus (wf : Workflow) : WorkflowStatus :=
  let tally := wf.agentTally
  if 0 < tally.failed then .failed
  else if 0 < tally.total ∧ tally.done = tally.total then .completed
  else .stopped

def finalized (now : Int) (wf : Workflow) : Workflow :=
  if wf.status = .running then
    { wf with
      status := finalStatus wf
      endedAt := wf.endedAt.or (some now)
      completionSource := wf.completionSource.or (some "stream_end") }
  else wf

def finalizeRunning (now : Int) : WorkflowStore :=
  { s with workflows := s.workflows.map fun e => (e.1, finalized now e.2) }

def aborted (now : Int) (wf : Workflow) : Workflow :=
  if wf.status = .running ∨ wf.status = .pending then
    { wf with
      status := .stopped
      endedAt := wf.endedAt.or (some now)
      completionSource := wf.completionSource.or (some "abort") }
  else wf

def abortRunning (now : Int) : WorkflowStore :=
  { s with workflows := s.workflows.map fun e => (e.1, aborted now e.2) }

end WorkflowStore

end Store

end PrivaCloud.Web
