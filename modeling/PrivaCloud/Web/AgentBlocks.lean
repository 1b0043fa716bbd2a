import PrivaCloud.AskUser.AnswerText
import PrivaCloud.Web.WorkflowStore

/-!
# Agent blocks and background work

The blocks of `Agent` and `Task` calls in the messages of `chatStore.js`, with `agentToolLifecycle.js`, and the
handlers of `useSSE.js` for the events that touch them and the workflows of a session.
-/

namespace PrivaCloud.Web

open Framework AskUser

inductive AgentLifecycle
  | running
  | completed
  | failed
  | terminated
  deriving DecidableEq

/-- `block.status` -/
inductive BlockStatus
  | running
  | success
  | error
  | stopped
  deriving DecidableEq

/-- Only `K`, `k` and the Kelvin sign have the lower case `k`; no other letter beyond ASCII has one of the statuses'. -/
def lowerChar (c : Char) : Char := if c = Char.ofNat 0x212A then 'k' else c.toLower

def trimmed (text : String) : String := String.ofList (strip jsSpace text.toList)

def normalizedStatus (status : Option String) : String :=
  String.ofList ((strip jsSpace (status.getD "").toList).map lowerChar)

def agentLifecycleFromStatus (status : Option String) : Option AgentLifecycle :=
  let normalized := normalizedStatus status
  if normalized ∈ ["completed", "complete", "success", "done"] then some .completed
  else if normalized ∈ ["killed", "stopped", "cancelled", "canceled", "aborted"] then some .terminated
  else if normalized ∈ ["failed", "error"] then some .failed
  else if normalized ∈ ["running", "pending", "queued", "in_progress", "async_launched", "remote_launched",
      "teammate_spawned"] then some .running
  else none

def agentLifecycleToBlockStatus : AgentLifecycle → BlockStatus
  | .running => .running
  | .failed => .error
  | .terminated => .stopped
  | .completed => .success

/-- A lifecycle as `agentTaskStatus` -/
def AgentLifecycle.text : AgentLifecycle → String
  | .running => "running"
  | .completed => "completed"
  | .failed => "failed"
  | .terminated => "terminated"

/-- The block of an `Agent` or `Task` call: its statuses, the agent's id, the ids that are found in its result and
beside it, and where its stream is -/
structure AgentBlock where
  id : String := ""
  status : Option BlockStatus := none
  agentTaskStatus : Option String := none
  agentId : String := ""
  resultId : String := ""
  toolUseResultId : String := ""
  streamKey : Option String := none
  complete : Bool := false
  deriving DecidableEq

/-- What `getAgentResultInfo` finds in a tool result; `toolUseResultId` is the id in its structured part, if there
is one. -/
structure AgentResult where
  resultId : String := ""
  toolUseResultId : Option String := none
  isAsync : Bool := false
  isError : Bool := false

def firstText (a b : String) : String := if a ≠ "" then a else b

structure AgentNotification where
  toolUseId : Option String := none
  taskId : Option String := none
  status : Option String := none

inductive AbortStatus
  | aborted
  | failed

def AbortStatus.text : AbortStatus → String
  | .aborted => "aborted"
  | .failed => "failed"

namespace AgentBlock

variable (block : AgentBlock)

/-- `getAgentDisplayId` -/
def displayId : String :=
  firstText (trimmed block.agentId) (firstText block.toolUseResultId block.resultId)

def withAgentToolResult (result : AgentResult) : AgentBlock :=
  let agentId := firstText (firstText (result.toolUseResultId.getD "") result.resultId) block.agentId
  match agentLifecycleFromStatus block.agentTaskStatus with
  | some .completed | some .failed | some .terminated =>
    { block with
      resultId := result.resultId
      toolUseResultId := result.toolUseResultId.getD block.toolUseResultId
      agentId }
  | _ =>
    let lifecycle := if result.isError then .failed else if result.isAsync then .running else .completed
    { block with
      resultId := result.resultId
      toolUseResultId := result.toolUseResultId.getD ""
      agentId
      agentTaskStatus := some lifecycle.text
      status := some (agentLifecycleToBlockStatus lifecycle) }

def isNotified (notification : AgentNotification) : Bool :=
  nonempty notification.toolUseId = some block.id && block.id ≠ "" ||
    (nonempty notification.taskId = some block.displayId && block.displayId ≠ "")

/-- The status of `normalizeAgentTaskNotification` -/
def notifiedStatus (notification : AgentNotification) : String :=
  firstText (normalizedStatus notification.status) "completed"

def applyAgentNotification (notification : AgentNotification) : AgentBlock :=
  if block.isNotified notification then
    match agentLifecycleFromStatus (some (notifiedStatus notification)) with
    | none => block
    | some lifecycle =>
      { block with
        agentId := firstText (notification.taskId.getD "") (firstText block.displayId block.agentId)
        agentTaskStatus := some (notifiedStatus notification)
        status := some (agentLifecycleToBlockStatus lifecycle) }
  else block

def abortRunning (abort : AbortStatus) : AgentBlock :=
  if block.status.any (· ≠ .running) then block
  else
    let lifecycle := (agentLifecycleFromStatus (some abort.text)).getD .terminated
    { block with
      status := some (agentLifecycleToBlockStatus lifecycle)
      agentTaskStatus := some abort.text
      resultId := "" }

/-- The block of a finished agent: a late event of its launch is not applied to it. -/
def isFinished : Bool :=
  (agentLifecycleFromStatus block.agentTaskStatus).any (· ≠ .running) && block.status.any (· ≠ .running)

end AgentBlock

/-- A tool use of an envelope: a workflow with what its input has, or an agent with the key of its stream -/
inductive ToolUse
  | workflow (id : String) (script name : Option String)
  | agent (id : String) (streamKey : Option String)

namespace ToolUse

def id : ToolUse → String
  | .workflow id _ _ => id
  | .agent id _ => id

/-- The block that a tool use takes over: the one of its stream, or the provisional one with its id -/
def takesOver (id : String) (streamKey : Option String) (block : AgentBlock) : Bool :=
  (streamKey.isSome && block.streamKey = streamKey) || (block.id = id && !block.complete)

def agentBlock (blocks : List AgentBlock) (id : String) (streamKey : Option String) : AgentBlock :=
  let existing := blocks.find? (takesOver id streamKey)
  { existing.getD {} with
    id
    status := some ((existing.bind AgentBlock.status).getD .running)
    streamKey := streamKey.or (existing.bind AgentBlock.streamKey)
    complete := true }

def agentBlocks (blocks : List AgentBlock) (uses : List ToolUse) : List AgentBlock :=
  uses.filterMap fun
    | .workflow _ _ _ => none
    | .agent id streamKey => some (agentBlock blocks id streamKey)

def replaces (uses : List ToolUse) (fresh : List AgentBlock) (block : AgentBlock) : Bool :=
  (block.streamKey.isSome && block.streamKey ∈ fresh.map AgentBlock.streamKey) ||
    (block.id ∈ uses.map ToolUse.id && !block.complete)

def reconciled (blocks : List AgentBlock) (uses : List ToolUse) : List AgentBlock :=
  let fresh := agentBlocks blocks uses
  blocks.filter (fun block => !replaces uses fresh block) ++ fresh

end ToolUse

/-- The assistant messages, the last one first, the blocks of the subagents, the workflows, and the tool uses that the
stream has seen -/
structure Work where
  messages : List (List AgentBlock) := []
  subagentContent : List (String × List AgentBlock) := []
  workflows : WorkflowStore := {}
  finalizedToolUseIds : List String := []

inductive WorkEvent
  | attach
  | assistantMessage
  | toolUse (parentToolUseId : Option String) (uses : List ToolUse)
  | toolResult (toolUseId : String) (result : AgentResult)
  | taskStopped (taskId : Option String)
  | taskStarted (toolUseId : String) (fields : Seed) (now : Int)
  | taskProgress (toolUseId : String) (progress : Progress)
  | taskNotification (notification : AgentNotification) (summary : Option String) (now : Int)
  | userNotification (notification : AgentNotification)
  | taskUpdated (taskId status : Option String) (endTime : Option Int) (now : Int)
  | hydrated (toolUseId : String) (snap : Snapshot) (now : Int)
  | streamEnd (now : Int)
  | abort (status : AbortStatus) (now : Int)

namespace Work

variable (parseWorkflowMeta : String → Option ScriptMeta) (s : Work)

def mapBlocks (change : AgentBlock → AgentBlock) : Work :=
  { s with
    messages := s.messages.map (List.map change)
    subagentContent := s.subagentContent.map fun e => (e.1, e.2.map change) }

def blocks : List AgentBlock := s.messages.flatten ++ s.subagentContent.flatMap Prod.snd

def currentBlocks (parentToolUseId : Option String) : List AgentBlock :=
  match parentToolUseId with
  | some parent => (getValue s.subagentContent parent).getD []
  | none => (s.messages.head?).getD []

/-- `ensureWorkflow` for the workflows of an envelope -/
def seedWorkflows (workflows : WorkflowStore) (uses : List ToolUse) : WorkflowStore :=
  uses.foldl (fun workflows use =>
    match use with
    | .workflow id script name =>
      workflows.ensureWorkflow parseWorkflowMeta id { script, workflowName := name, status := some .pending }
    | .agent _ _ => workflows) workflows

def newUses (uses : List ToolUse) : List ToolUse := uses.filter fun use => use.id ∉ s.finalizedToolUseIds

def onToolUse (parentToolUseId : Option String) (uses : List ToolUse) : Work :=
  let uses := s.newUses uses
  let s := { s with finalizedToolUseIds := uses.map ToolUse.id ++ s.finalizedToolUseIds }
  match parentToolUseId with
  | some parent =>
    if uses = [] then s
    else
      { s with
        subagentContent :=
          assign s.subagentContent parent (ToolUse.reconciled ((getValue s.subagentContent parent).getD []) uses) }
  | none =>
    match s.messages with
    | [] => s
    | last :: before =>
      { s with
        messages := ToolUse.reconciled last uses :: before
        workflows := seedWorkflows parseWorkflowMeta s.workflows uses }

/-- `applyAgentTaskNotification` -/
def notify (notification : AgentNotification) : Work := s.mapBlocks (·.applyAgentNotification notification)

/-- `markCompletion` for the workflow of a task, if there is one -/
def complete (toolUseId taskId status source : Option String) (endedAt : Option Int) (summary : Option String)
    (now : Int) : Work :=
  match s.workflows.resolveId toolUseId taskId with
  | none => s
  | some id => { s with workflows := s.workflows.markCompletion id status source endedAt summary now }

def step (e : WorkEvent) : Option Work :=
  match e with
  | .attach => some { s with finalizedToolUseIds := [] }
  | .assistantMessage => some { s with messages := [] :: s.messages }
  | .toolUse parent uses => some (s.onToolUse parseWorkflowMeta parent uses)
  | .toolResult toolUseId result =>
    some (s.mapBlocks fun block => if block.id = toolUseId then block.withAgentToolResult result else block)
  | .taskStopped taskId => some (s.notify { taskId, status := some "killed" })
  | .taskStarted toolUseId fields now =>
    some { s with workflows := s.workflows.applyStart parseWorkflowMeta toolUseId fields now }
  | .taskProgress toolUseId progress =>
    some { s with workflows := s.workflows.applyProgress parseWorkflowMeta toolUseId progress }
  | .taskNotification notification summary now =>
    some ((s.notify notification).complete notification.toolUseId notification.taskId notification.status
      (some "task_notification") none summary now)
  | .userNotification notification => some (s.notify notification)
  | .taskUpdated taskId status endTime now =>
    let notified := if isTerminalRawStatus status then s.notify { taskId, status } else s
    some (notified.complete none taskId status (some "task_updated") endTime none now)
  | .hydrated toolUseId snap now => some { s with workflows := s.workflows.hydrateFromSnapshot toolUseId snap now }
  | .streamEnd now => some { s with workflows := s.workflows.finalizeRunning now }
  | .abort status now =>
    some { s.mapBlocks (·.abortRunning status) with workflows := s.workflows.abortRunning now }

end Work

end PrivaCloud.Web
