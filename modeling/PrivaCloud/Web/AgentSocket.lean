import PrivaCloud.Framework.Dict

/-!
# The socket of a run

`openAgentWS`: the client that starts a run or attaches to one, and connects again when its socket is lost.
A transition is one callback of the browser (`onopen`, `onmessage`, `onclose`, a timer) or `abort`.
-/

namespace PrivaCloud.Web

open Framework

/-- `RECONNECT_BACKOFF`, in seconds -/
def reconnectBackoff : List Nat := [1, 2, 4, 8, 16]

/-- `PROTOCOL_AUTH_CLOSE_CODES` -/
def protocolAuthCloseCodes : List Nat := [4000, 4001]

inductive EntryMode
  | init
  | attach
  deriving DecidableEq

/-- The first frame of a socket, by what the endpoint goes by. -/
inductive FirstFrame
  | init (sessionId : Option String)
  | attach (sessionId runId : Option String) (sinceSeq : Nat)

def FirstFrame.isInit : FirstFrame → Bool
  | init _ => true
  | attach _ _ _ => false

inductive ServerEvent
  | keepalive
  | attachOk (sessionId runId : Option String)
  | streamInit (streamId : Option String)
  /-- `system` of subtype `init` -/
  | systemInit (sessionId : Option String)
  | result (sessionId : Option String)
  | other (name : String)
  deriving DecidableEq

structure ServerMessage where
  event : ServerEvent
  seq : Option Nat := none

/-- What a callback does besides the state of the socket. -/
inductive SocketEffect
  | complete
  | reconcile
  | unauthorized
  | error (message : String)
  | streamError (code message : String)

/-- Where the socket that `ws` refers to stands; `connect` notes whether it connects again. -/
inductive SocketPhase
  | connecting (isReconnect : Bool)
  | opened
  /-- the timer of a reconnect is set -/
  | waiting
  | closed
  deriving DecidableEq

structure AgentSocket where
  entryMode : EntryMode
  activeSessionId : Option String
  activeRunId : Option String := none
  lastSeq : Option Nat
  reconnectAttempt : Nat := 0
  completed : Bool := false
  userAborted : Bool := false
  phase : SocketPhase := .connecting false

namespace AgentSocket

/-- `streamAgentRunWS` -/
def streamAgentRun (sessionId : Option String) : AgentSocket where
  entryMode := .init
  activeSessionId := sessionId
  lastSeq := none

/-- `attachAgentRunWS` -/
def attachAgentRun (sessionId : Option String) (sinceSeq : Nat) : AgentSocket where
  entryMode := .attach
  activeSessionId := sessionId
  lastSeq := some sinceSeq

variable (c : AgentSocket)

def sendInit : FirstFrame := .init (truthy c.activeSessionId)

def sendAttach : FirstFrame := .attach (truthy c.activeSessionId) (truthy c.activeRunId) (c.lastSeq.getD 0)

def finalize : AgentSocket × List SocketEffect :=
  if c.completed then ({ c with phase := .closed }, [])
  else ({ c with completed := true, phase := .closed }, [.complete])

def registryRunConfirmed : Bool := c.entryMode = .attach || (truthy c.activeRunId).isSome || c.lastSeq.isSome

def scheduleReconnect : AgentSocket × List SocketEffect :=
  if reconnectBackoff.length ≤ c.reconnectAttempt then
    (c.finalize.1, (if c.registryRunConfirmed then [] else [.error "connection.lost"]) ++ c.finalize.2 ++ [.reconcile])
  else ({ c with reconnectAttempt := c.reconnectAttempt + 1, phase := .waiting }, [])

/-- `connect`, by the timer -/
def connect : AgentSocket := { c with phase := .connecting (0 < c.reconnectAttempt) }

/-- `ws.onopen` of a socket that connects for the first time or again -/
def onOpen (isReconnect : Bool) : AgentSocket × FirstFrame :=
  ({ c with reconnectAttempt := 0, phase := .opened }, if c.entryMode = .attach then c.sendAttach
    else if isReconnect ∧ (c.lastSeq.isSome ∨ (truthy c.activeRunId).isSome) then c.sendAttach
    else c.sendInit)

/-- `if (typeof seq === 'number' && seq > (lastSeq || 0)) lastSeq = seq` -/
def noteSeq (seq : Option Nat) : AgentSocket :=
  match seq with
  | none => c
  | some seq => if c.lastSeq.getD 0 < seq then { c with lastSeq := some seq } else c

/-- An id that is there replaces the one before. -/
def orKeep (new old : Option String) : Option String := (truthy new).or old

/-- The identity of the run and of the session, from an event. -/
def noteEvent : ServerEvent → AgentSocket
  | .keepalive | .other _ => c
  | .result sessionId | .systemInit sessionId => { c with activeSessionId := orKeep sessionId c.activeSessionId }
  | .streamInit streamId =>
    if (truthy c.activeRunId).isSome then c else { c with activeRunId := orKeep streamId c.activeRunId }
  | .attachOk sessionId runId =>
    { c with activeSessionId := orKeep sessionId c.activeSessionId, activeRunId := orKeep runId c.activeRunId }

/-- `ws.onmessage` -/
def onMessage (message : ServerMessage) : AgentSocket := (c.noteSeq message.seq).noteEvent message.event

/-- `ws.onclose` -/
def onClose (code : Nat) : AgentSocket × List SocketEffect :=
  if c.userAborted ∨ c.completed then c.finalize
  else if code = 4001 then (c.finalize.1, .unauthorized :: c.finalize.2)
  else if code = 1000 then (c.finalize.1, c.finalize.2 ++ [.reconcile])
  else if code ∈ protocolAuthCloseCodes then c.finalize
  else if code = 4500 then
    (c.finalize.1, .streamError "ServerError" "Server error — please try again." :: c.finalize.2)
  else if code = 1009 then (c.finalize.1, .streamError "MessageTooLarge" "connection.messageTooLarge" :: c.finalize.2)
  else c.scheduleReconnect

def abort : AgentSocket × List SocketEffect := { c with userAborted := true }.finalize

end AgentSocket

end PrivaCloud.Web
