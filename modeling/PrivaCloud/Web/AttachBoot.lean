import PrivaCloud.AgentRunner.RunRegistry.Replay
import PrivaCloud.Web.AgentSocket

/-!
# Joining a run again

`reconcileRunningSessions` for one session: the list of the running sessions, the transcript with its barrier, the
hydration and the attach. The transcript has a row for every complete message recorded before it is read.
-/

namespace PrivaCloud.Web

open Framework AgentRunner

/-- A row of a transcript, by what the hydration reads. -/
structure Row where
  uuid : String
  parentToolUseId : Option String := none
  /-- in milliseconds, if it can be parsed -/
  timestamp : Option Nat := none
  deriving DecidableEq

/-- A row of the main transcript; the others are of subagents. -/
def Row.main (row : Row) : Bool := (truthy row.parentToolUseId).isNone

/-- An encoding with the rows of the events that carry a complete message. -/
structure RowCodec (Data : Type) extends Codec Data where
  row : EventType → Data → Option Row
  internal : ∀ t ∈ [EventType.keepalive, .permissionRequest, .runEnd, .subscriberOverflow], ∀ d, row t d = none

namespace RowCodec

variable {Data : Type} (codec : RowCodec Data)

def rows (events : List (RunEvent Data)) : List Row := events.filterMap fun e => codec.row e.eventType e.data

end RowCodec

structure SessionRun (Data : Type) where
  broadcast : Broadcast Data
  /-- `started_at`, in milliseconds -/
  startedAt : Nat
  /-- the registry has not swept the record -/
  retained : Bool := true

namespace SessionRun

variable {Data : Type} (run : SessionRun Data)

def record : RunRecord Data := run.broadcast.record

def rows (codec : RowCodec Data) : List Row := codec.rows run.broadcast.history

end SessionRun

/-- An entry of `/sessions/running`. -/
structure ListedRun where
  runId : String
  startedAt : Nat
  firstUserUuid : Option String
  deriving DecidableEq

/-- `SessionMessagesResponse` -/
structure SessionMessages where
  messages : List Row
  liveRunId : Option String
  liveSeq : Option Nat
  liveFirstSeq : Option Nat

inductive Restore
  | idle
  | listed (run : ListedRun)
  | hydrated (runId : String) (rows : List Row) (sinceSeq : Nat)
  | attached (i : Nat) (runId : String) (rows : List Row) (sinceSeq : Nat)
  /-- `attach_error` -/
  | refused (rows : List Row)
  deriving DecidableEq

structure RestoreWorld (Data : Type) where
  sessionId : String
  /-- in the order in which they were created; the session refers to the last one -/
  runs : List (SessionRun Data) := []
  restore : Restore := .idle

/-- A sidechain row that was written since the run began. -/
def Row.since (row : Row) (startMs : Nat) : Bool := row.timestamp.any (startMs ≤ ·)

/-- The rows that `hydrateRuntime` loads. -/
def hydrateRows (run : ListedRun) (rows : List Row) (includeCurrentRun : Bool) : List Row :=
  match includeCurrentRun, truthy run.firstUserUuid with
  | true, _ | _, none => rows
  | false, some uuid =>
    match rows.findIdx? (·.uuid = uuid) with
    | none => rows
    | some cut =>
      if run.startedAt = 0 then rows.take cut
      else (rows.take cut).filter fun row => row.main || !row.since run.startedAt

/-- The part of `reconcileRunningSessions` after the transcript has come: the rows and the cursor of the
attach, unless the session is tried again later. -/
def reconcile (run : ListedRun) (data : SessionMessages) : Option (List Row × Nat) :=
  if data.liveRunId ≠ some run.runId then none
  else
    let replayGap := data.liveFirstSeq.any (1 < ·)
    match replayGap, data.liveSeq with
    | true, none => none
    | true, some barrierSeq => some (hydrateRows run data.messages true, barrierSeq)
    | false, _ => some (hydrateRows run data.messages false, 0)

namespace RestoreWorld

variable {Data : Type} (codec : RowCodec Data) (s : RestoreWorld Data)

def earlierRows (i : Nat) : List Row := (s.runs.take i).flatMap (·.rows codec)

/-- Every complete message of the session. -/
def produced : List Row := s.runs.flatMap (·.rows codec)

/-- The main rows, and after them those of the subagents. -/
def transcript : List Row := (s.produced codec).filter Row.main ++ (s.produced codec).filter fun row => !row.main

/-- `live_for_session` -/
def liveRun : Option (SessionRun Data) := s.runs.getLast?.filter fun run => run.retained && run.record.live

/-- `get_agent_session_messages` -/
def sessionMessages : SessionMessages where
  messages := s.transcript codec
  liveRunId := s.liveRun.map (·.record.runId)
  liveSeq := s.liveRun.map (·.record.nextSeq - 1)
  liveFirstSeq := s.liveRun.map (·.record.firstSeq)

/-- `run_registry.get`, by an attach frame of the session -/
def lookup : FirstFrame → Option Nat
  | .init _ => none
  | .attach _ (some runId) _ =>
    s.runs.findIdx? fun run => run.retained && run.record.runId = runId
  | .attach _ none _ => (s.runs.getLast?.filter (·.retained)).map fun _ => s.runs.length - 1

/-- The frame that `attachAgentRunWS` sends. -/
def attachFrame (sinceSeq : Nat) : FirstFrame :=
  ((AgentSocket.attachAgentRun (some s.sessionId) sinceSeq).onOpen false).2

def setRun (i : Nat) (run : SessionRun Data) : RestoreWorld Data := { s with runs := s.runs.set i run }

def publish (run : SessionRun Data) (eventType : EventType) (data : Data) : SessionRun Data :=
  { run with broadcast := run.broadcast.publish codec.toCodec eventType data }

def ended (run : SessionRun Data) (status : RunStatus) (data : Data) : SessionRun Data :=
  publish codec { run with broadcast := { run.broadcast with record := { run.record with status := status } } }
    .runEnd data

end RestoreWorld

inductive RestoreEvent (Data : Type)
  | start (runId : String) (startedAt : Nat)
  | record (eventType : EventType) (data : Data)
  | finish (status : RunStatus) (data : Data)
  /-- the record of the last run is swept -/
  | sweep
  | list
  | read
  | attach
  /-- the follower of the attach moves on -/
  | follow (event : BroadcastEvent Data)

def own {Data : Type} : BroadcastEvent Data → Bool
  | .attachOkSent i _ | .replayNext i | .restoreNext i | .followNext i | .keepalive i | .disconnect i => i = 0
  | .record _ _ | .attach _ _ _ _ => false

namespace RestoreWorld

variable {Data : Type} (codec : RowCodec Data)

def fresh (s : RestoreWorld Data) (eventType : EventType) (data : Data) : Bool :=
  (codec.row eventType data).all fun row => (s.produced codec).all (·.uuid ≠ row.uuid)

def step (s : RestoreWorld Data) : RestoreEvent Data → Option (RestoreWorld Data)
  | .start runId startedAt =>
    if s.liveRun.isNone ∧ s.runs.all (·.record.runId ≠ runId) then
      some { s with runs := s.runs ++ [{ broadcast := .init runId, startedAt := startedAt }] }
    else none
  | .record eventType data =>
    match s.liveRun with
    | some run =>
      if eventType ≠ .runEnd ∧ fresh codec s eventType data then
        some (s.setRun (s.runs.length - 1) (publish codec run eventType data))
      else none
    | none => none
  | .finish status data =>
    match s.liveRun with
    | some run =>
      if status ≠ .running then some (s.setRun (s.runs.length - 1) (ended codec run status data)) else none
    | none => none
  | .sweep =>
    match s.runs.getLast? with
    | some run => if run.record.live then none else some (s.setRun (s.runs.length - 1) { run with retained := false })
    | none => none
  | .list =>
    match s.restore, s.liveRun with
    | .idle, some run =>
      some { s with restore := .listed ⟨run.record.runId, run.startedAt, run.record.firstUserUuid⟩ }
    | _, _ => none
  | .read =>
    match s.restore with
    | .listed run =>
      match reconcile run (s.sessionMessages codec) with
      | some (rows, sinceSeq) => some { s with restore := .hydrated run.runId rows sinceSeq }
      | none => some { s with restore := .idle }
    | _ => none
  | .attach =>
    match s.restore with
    | .hydrated runId rows sinceSeq =>
      match s.lookup (s.attachFrame sinceSeq) with
      | none => some { s with restore := .refused rows }
      | some i =>
        match s.runs[i]? with
        | some run => (run.broadcast.step codec.toCodec (.attach 0 sinceSeq true [])).map fun broadcast =>
          { s.setRun i { run with broadcast := broadcast } with restore := .attached i runId rows sinceSeq }
        | none => none
    | _ => none
  | .follow event =>
    match s.restore with
    | .attached i _ _ _ =>
      match s.runs[i]? with
      | some run =>
        if own event then
          (run.broadcast.step codec.toCodec event).map fun broadcast => s.setRun i { run with broadcast := broadcast }
        else none
      | none => none
    | _ => none

end RestoreWorld

end PrivaCloud.Web
