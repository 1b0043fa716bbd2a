import PrivaCloud.AgentRunner.RunRegistry.Effects

/-!
# Who ends a run

A `RunRecord` is ended by its run task (`_execute_run`), by a native peer turn that has created or adopted it
(`_observe_unsolicited`) or by the close of its runtime (`_close_physical`), which takes it out of the
runtime before it awaits and ends it after.
-/

namespace PrivaCloud.AgentRunner

open Framework

/-- Where the run task of a record stands, if it has one. -/
inductive RunTaskState
  | none
  | created
  | body
  | ended
  deriving DecidableEq

/-- `_close_physical` between its two halves holds the record that the runtime had. -/
inductive CloseState
  | unclosed
  | closing (captured : Option RecordId)
  | closed
  deriving DecidableEq

/-- The part of a `SessionRuntime` that peer turns and the scan of the pool read. -/
structure PeerRuntime where
  sessionId : Option String := none
  /-- `_runtimes` refers to it -/
  resident : Bool := true
  /-- `_unsolicited_active` -/
  active : Bool := false
  /-- `_unsolicited_record` -/
  record : Option RecordId := none
  close : CloseState := .unclosed

/-- A raw frame: whether it comes from a peer, the event it is recorded as, and `is_error` of a
result. -/
structure PeerFrame where
  peer : Bool := false
  event : Option (EventType × Payload) := none
  result : Option Bool := none

/-- No label of a message is the internal end. -/
def PeerFrame.labelled (frame : PeerFrame) : Bool :=
  frame.event.all fun event => event.1 ≠ .runEnd

structure RunOwners where
  registry : RunRegistry Payload := RunRegistry.empty
  /-- every event that was recorded, also those that the buffer has dropped -/
  log : RecordId → List (EventType × Payload) := fun _ => []
  runs : RecordId → RunTaskState := fun _ => .none
  runtimes : List PeerRuntime := []

/-- How the body of `_execute_run` is left; the last one is another `BaseException`. -/
inductive RunExit
  | returns
  | raises (size : Nat)
  | cancelled
  | escapes

namespace RunOwners

def init : RunOwners := {}

def status (s : RunOwners) (r : RecordId) : RunStatus := (s.registry.records r).status

def live (s : RunOwners) (r : RecordId) : Bool := s.status r = .running

def recordEvent (s : RunOwners) (r : RecordId) (eventType : EventType) (data : Payload) : RunOwners :=
  { s with
    registry := s.registry.recordEvent payloadCodec r eventType data
    log := if eventType = .keepalive then s.log
      else Function.update s.log r (s.log r ++ [(eventType, data)]) }

/-- `run_registry.finish` and the event `RUN_END_EVENT`, as every owner ends a record -/
def endRun (s : RunOwners) (r : RecordId) (status : RunStatus) (now : ℚ) : RunOwners :=
  let s := { s with registry := s.registry.finish r status now now }
  s.recordEvent r .runEnd (.status (s.status r))

def setRun (s : RunOwners) (r : RecordId) (state : RunTaskState) : RunOwners :=
  { s with runs := Function.update s.runs r state }

def setRuntime (s : RunOwners) (i : Nat) (rt : PeerRuntime) : RunOwners :=
  { s with runtimes := s.runtimes.set i rt }

/-- `ws_run` up to the creation of the task -/
def wsInit (s : RunOwners) (sessionId : String) (now : ℚ) (uuid : String) : RunOwners :=
  match s.registry.create now (some sessionId) none uuid with
  | (registry, .error _) => { s with registry := registry }
  | (registry, .ok r) => { s with registry := registry }.setRun r .created

def ownsNativeRecord (s : RunOwners) (r : RecordId) : Bool :=
  s.runtimes.any fun rt => rt.resident && rt.record = some r

/-- The `finally` of `_execute_run` -/
def executeRunFinally (s : RunOwners) (r : RecordId) (raised : Bool) (now : ℚ) : RunOwners :=
  if s.live r && !s.ownsNativeRecord r then
    s.endRun r (if raised then .error
      else if (s.registry.records r).cancelled then .aborted else .completed) now
  else s

/-- `_execute_run` from the end of its body on; the handler of a cancellation ends the record whatever
its status is. -/
def executeRunEnds (s : RunOwners) (r : RecordId) (exit : RunExit) (now : ℚ) : RunOwners :=
  let s := match exit with
    | .returns | .escapes => s.executeRunFinally r false now
    | .raises size =>
      (s.recordEvent r (.other "stream_error") (.object size none)).executeRunFinally r true now
    | .cancelled => (s.endRun r .aborted now).executeRunFinally r false now
  s.setRun r .ended

/-- The record that a peer turn of the runtime goes to: a new one, or the live one of its session. -/
def claimRecord (s : RunOwners) (rt : PeerRuntime) (now : ℚ) (uuid : String) : RunOwners × Option RecordId :=
  match s.registry.create now rt.sessionId none uuid with
  | (registry, .ok r) => ({ s with registry := registry }, some r)
  | (registry, .error _) =>
    ({ s with registry := registry }, match truthy rt.sessionId with
      | some sessionId => registry.liveForSession now sessionId
      | none => none)

/-- `_observe_unsolicited` from its first peer frame to the record that it holds then; a turn that is
not admitted, or finds no record, kills the runtime. -/
def startPeerTurn (s : RunOwners) (i : Nat) (rt : PeerRuntime) (admission : Bool) (now : ℚ)
    (uuid : String) : RunOwners × Option RecordId :=
  if admission then
    match s.claimRecord rt now uuid with
    | (s, some r) => (s.setRuntime i { rt with active := true, record := some r }, some r)
    | (s, none) => (s, none)
  else (s, none)

/-- `_observe_unsolicited` from the record on -/
def noteFrame (s : RunOwners) (i : Nat) (r : RecordId) (frame : PeerFrame) (now : ℚ) : RunOwners :=
  let s := match frame.event with
    | some event => s.recordEvent r event.1 event.2
    | none => s
  match frame.result, s.runtimes[i]? with
  | some isError, some rt =>
    (s.setRuntime i { rt with active := false, record := none }).endRun r
      (if isError then .error else .completed) now
  | _, _ => s

def observeUnsolicited (s : RunOwners) (i : Nat) (rt : PeerRuntime) (frame : PeerFrame)
    (admission : Bool) (now : ℚ) (uuid : String) : RunOwners :=
  if rt.active then
    match rt.record with
    | some r => s.noteFrame i r frame now
    | none => s
  else if frame.peer then
    match s.startPeerTurn i rt admission now uuid with
    | (s, some r) => s.noteFrame i r frame now
    | (s, none) => s
  else s

/-- `_close_physical` up to its first await -/
def closeBegins (s : RunOwners) (i : Nat) (rt : PeerRuntime) : RunOwners :=
  let s := match rt.record with
    | some r => { s with registry := s.registry.setCancelled r }
    | none => s
  s.setRuntime i
    { rt with active := false, record := none, close := .closing (if rt.active then rt.record else none) }

/-- `_close_physical` from the end of the receiver on -/
def closeEnds (s : RunOwners) (i : Nat) (rt : PeerRuntime) (captured : Option RecordId) (now : ℚ) : RunOwners :=
  let s := s.setRuntime i { rt with close := .closed }
  match captured with
  | some r => if s.live r then s.endRun r .aborted now else s
  | none => s

end RunOwners

inductive OwnerEvent
  | wsInit (sessionId : String) (now : ℚ) (uuid : String)
  | runBegins (r : RecordId)
  | emits (r : RecordId) (eventType : EventType) (data : Payload)
  | executeRunEnds (r : RecordId) (exit : RunExit) (now : ℚ)
  | cancelledUnstarted (r : RecordId)
  /-- an answer to a permission request, recorded by the reader of a socket -/
  | readerRecords (r : RecordId) (data : Payload)
  | registryCalled (op : RegistryOp Payload)
  | runtimeAdded (sessionId : Option String)
  | residentSet (i : Nat) (resident : Bool)
  | sessionSet (i : Nat) (sessionId : Option String)
  | peerFrame (i : Nat) (frame : PeerFrame) (admission : Bool) (now : ℚ) (uuid : String)
  | closeBegins (i : Nat)
  | closeEnds (i : Nat) (now : ℚ)
  /-- the close is cancelled, or raises, before it ends the record -/
  | closeCut (i : Nat)

namespace RunOwners

/-- The calls on the registry that neither make nor end a record. -/
def quiet : RegistryOp Payload → Bool
  | .create .. | .finish .. | .finishCancelled .. | .recordEvent .. => false
  | .indexRunId .. | .indexSession .. | .get .. | .sweep _ | .listActive _ | .setCancelled _ => true

def step (s : RunOwners) : OwnerEvent → Option RunOwners
  | .wsInit sessionId now uuid => some (s.wsInit sessionId now uuid)
  | .runBegins r => if s.runs r = .created then some (s.setRun r .body) else none
  | .emits r eventType data =>
    if s.runs r = .body ∧ eventType ≠ .runEnd then some (s.recordEvent r eventType data) else none
  | .executeRunEnds r exit now =>
    if s.runs r = .body then some (s.executeRunEnds r exit now) else none
  | .cancelledUnstarted r => if s.runs r = .created then some (s.setRun r .ended) else none
  | .readerRecords r data =>
    if r < s.registry.size then some (s.recordEvent r (.other "permission_resolved") data) else none
  | .registryCalled op =>
    if s.registry.Enabled op ∧ quiet op then
      some { s with registry := s.registry.apply payloadCodec op }
    else none
  | .runtimeAdded sessionId =>
    some { s with runtimes := s.runtimes ++ [{ sessionId := sessionId }] }
  | .residentSet i resident =>
    s.runtimes[i]?.map fun rt => s.setRuntime i { rt with resident := resident }
  | .sessionSet i sessionId =>
    s.runtimes[i]?.map fun rt => s.setRuntime i { rt with sessionId := sessionId }
  | .peerFrame i frame admission now uuid =>
    s.runtimes[i]?.bind fun rt =>
      if rt.close ≠ .closed ∧ frame.labelled then
        some (s.observeUnsolicited i rt frame admission now uuid)
      else none
  | .closeBegins i =>
    s.runtimes[i]?.bind fun rt => if rt.close = .unclosed then some (s.closeBegins i rt) else none
  | .closeEnds i now =>
    s.runtimes[i]?.bind fun rt =>
      match rt.close with
      | .closing captured => some (s.closeEnds i rt captured now)
      | .unclosed | .closed => none
  | .closeCut i =>
    s.runtimes[i]?.bind fun rt =>
      match rt.close with
      | .closing _ => some (s.setRuntime i { rt with close := .closed })
      | .unclosed | .closed => none

end RunOwners

end PrivaCloud.AgentRunner
