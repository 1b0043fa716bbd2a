import PrivaCloud.AgentRunner.RunRegistry.Effects
import PrivaCloud.Web.AgentSocket

/-!
# One run for one message

A call of `streamAgentRunWS` together with the endpoint `/ws/run`: the sockets of the call, the frames on
their way in both directions and the registry of the runner. A socket may be lost at any time; the frame on
its way then gets through or not.
-/

namespace PrivaCloud.Web

open Framework AgentRunner

/-- The end of a socket at the runner: before the first frame, while the run mode of a session is resolved,
while it follows a record, and after. -/
inductive RunnerConn
  | accepted
  | resolving (sessionId : Option String)
  | following (record : RecordId)
  | ended

structure Connection where
  /-- the first frame, on its way to the runner -/
  frame : Option FirstFrame := none
  runner : RunnerConn := .accepted
  /-- the messages on their way to the client -/
  inbox : List ServerMessage := []

/-- The first frame is turned down before the registry is asked, or passes. -/
inductive FrameCheck
  | authFailed
  | invalid
  | passed
  deriving DecidableEq

def attachOkMessage (registry : RunRegistry Payload) (record : RecordId) : ServerMessage where
  event := .attachOk (registry.records record).sessionId (some (registry.records record).runId)

def refusal (event : String) : ServerMessage where
  event := .other event

namespace Connection

variable (conn : Connection)

def refuse (event : String) : Connection :=
  { conn with frame := none, runner := .ended, inbox := conn.inbox ++ [refusal event] }

/-- `_ws_follow` up to its first await -/
def follow (registry : RunRegistry Payload) (record : RecordId) : Connection :=
  { conn with
    frame := none
    runner := .following record
    inbox := conn.inbox ++ [attachOkMessage registry record] }

/-- An init is on its way or being handled. -/
def making : Bool := conn.frame.any FirstFrame.isInit || (conn.runner matches .resolving _)

end Connection

structure RunCall where
  client : AgentSocket
  /-- the sockets in the order in which they were made; the client listens to the last one -/
  sockets : List Connection := [{}]
  registry : RunRegistry Payload
  /-- the records that have been created for the message -/
  executes : List RecordId := []

inductive RunCallEvent
  | opens
  | receives
  | closes (code : Nat)
  | reconnects
  | aborts
  /-- the frame of a socket that is gone, or not open yet, is lost -/
  | loses (i : Nat)
  | delivers (i : Nat) (now : ℚ) (check : FrameCheck)
  | resolves (i : Nat) (now : ℚ) (known : Bool) (sessionUuid runUuid : String)
  /-- the follower sends an event of the record -/
  | sends (i : Nat) (message : ServerMessage)
  | ends (i : Nat)
  /-- another call on the registry -/
  | registry (op : RegistryOp Payload)

namespace RunCall

variable (s : RunCall)

def current : Nat := s.sockets.length - 1

def setSocket (i : Nat) (conn : Connection) : RunCall := { s with sockets := s.sockets.set i conn }

def listening : Bool := s.client.phase = .opened

/-- `ws_run` for a first frame -/
def deliver (i : Nat) (conn : Connection) (frame : FirstFrame) (now : ℚ) (check : FrameCheck) : RunCall :=
  match check, frame with
  | .authFailed, _ => s.setSocket i (conn.refuse "error")
  | _, .attach sessionId runId _ =>
    match s.registry.get now sessionId runId with
    | (registry, none) => { s with registry := registry }.setSocket i (conn.refuse "attach_error")
    | (registry, some record) => { s with registry := registry }.setSocket i (conn.follow registry record)
  | .invalid, .init _ => s.setSocket i (conn.refuse "error")
  | .passed, .init sessionId =>
    match truthy sessionId with
    | none => s.setSocket i { conn with frame := none, runner := .resolving sessionId }
    | some key =>
      let s' := { s with registry := s.registry.sweep now }
      match s.registry.liveForSession now key with
      | some _ => s'.setSocket i (conn.refuse "stream_error")
      | none => s'.setSocket i { conn with frame := none, runner := .resolving sessionId }

/-- The session of the run: a new one, unless the one that is named is resumed. -/
def sessionKey (fork : Bool) (sessionId : Option String) (uuid : String) : String :=
  match sessionId with
  | none => uuid
  | some sessionId => if fork then uuid else sessionId

/-- `ws_run` after the run mode has been resolved; `fork` is `fork_session`, which the client leaves out -/
def resolve (fork : Bool) (i : Nat) (conn : Connection) (sessionId : Option String) (now : ℚ) (known : Bool)
    (sessionUuid runUuid : String) : RunCall :=
  if known then
    match s.registry.create now (some (sessionKey fork sessionId sessionUuid)) none runUuid with
    | (registry, .error _) => { s with registry := registry }.setSocket i (conn.refuse "stream_error")
    | (registry, .ok record) =>
      { s with registry := registry, executes := s.executes ++ [record] }.setSocket i (conn.follow registry record)
  else s.setSocket i (conn.refuse "stream_error")

def step (fork : Bool) (s : RunCall) : RunCallEvent → Option RunCall
  | .opens =>
    match s.client.phase, s.sockets[s.current]? with
    | .connecting isReconnect, some conn =>
      let (client, frame) := s.client.onOpen isReconnect
      some ({ s with client := client }.setSocket s.current { conn with frame := some frame })
    | _, _ => none
  | .receives =>
    match s.sockets[s.current]? with
    | some conn =>
      match conn.inbox with
      | message :: inbox =>
        if s.listening then
          some ({ s with client := s.client.onMessage message }.setSocket s.current { conn with inbox := inbox })
        else none
      | [] => none
    | none => none
  | .closes code =>
    match s.client.phase with
    | .connecting _ | .opened => some { s with client := (s.client.onClose code).1 }
    | .waiting | .closed => none
  | .reconnects =>
    if s.client.phase = .waiting then some { s with client := s.client.connect, sockets := s.sockets ++ [{}] }
    else none
  | .aborts => some { s with client := s.client.abort.1 }
  | .loses i =>
    match s.sockets[i]? with
    | some conn =>
      if i = s.current ∧ s.listening then none else some (s.setSocket i { conn with frame := none })
    | none => none
  | .delivers i now check =>
    match s.sockets[i]? with
    | some conn =>
      match conn.runner, conn.frame with
      | .accepted, some frame => some (s.deliver i conn frame now check)
      | _, _ => none
    | none => none
  | .resolves i now known sessionUuid runUuid =>
    match s.sockets[i]? with
    | some conn =>
      match conn.runner with
      | .resolving sessionId =>
        if sessionUuid ≠ "" ∧ s.registry.Enabled (.create now (some sessionUuid) none runUuid) then
          some (s.resolve fork i conn sessionId now known sessionUuid runUuid)
        else none
      | _ => none
    | none => none
  | .sends i message =>
    match s.sockets[i]? with
    | some conn =>
      match conn.runner, message.event with
      | .following _, .attachOk _ _ => none
      | .following _, _ => some (s.setSocket i { conn with inbox := conn.inbox ++ [message] })
      | _, _ => none
    | none => none
  | .ends i =>
    match s.sockets[i]? with
    | some conn => some (s.setSocket i { conn with frame := none, runner := .ended })
    | none => none
  | .registry op => if s.registry.Enabled op then some { s with registry := s.registry.apply payloadCodec op } else none

/-- A message is sent for a new session or to one that is resumed. -/
def begin (sessionId : Option String) (registry : RunRegistry Payload) : RunCall where
  client := AgentSocket.streamAgentRun sessionId
  registry := registry

end RunCall

end PrivaCloud.Web
