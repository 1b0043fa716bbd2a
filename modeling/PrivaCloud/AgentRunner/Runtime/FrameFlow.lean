import PrivaCloud.AgentRunner.BoundedQueue
import PrivaCloud.AgentRunner.Runtime.SessionRuntime

/-!
# The frames of one runtime

The lifetime receiver, the iterators of the turns and `finish_turn` share the queue of the active turn
and the deferred frames; the receiver may be suspended in the `put` on a full queue. A turn has one
consumer at a time. Two logs record the frames that were read and what became of them.
-/

namespace PrivaCloud.AgentRunner

open Framework

/-- `MAX_TURN_FRAMES` -/
def maxTurnFrames : Nat := 128
/-- `MAX_TURN_FRAME_BYTES` -/
def maxTurnFrameBytes : Nat := 16 * 1024 * 1024

/-- A frame, or the notice that the receiver has stopped. -/
inductive QueueItem
  | frame (f : Frame)
  | error (nonretry : Bool)

def QueueItem.frame? : QueueItem → Option Frame
  | .frame f => some f
  | .error _ => none

abbrev TurnQueue := BoundedAsyncQueue QueueItem

def TurnQueue.empty : TurnQueue := { maxsize := maxTurnFrames, maxBytes := maxTurnFrameBytes }

def TurnQueue.frames (q : TurnQueue) : List Frame := q.contents.filterMap QueueItem.frame?

/-- What became of a frame. -/
inductive Disposal
  /-- taken by an iterator of the turn -/
  | delivered (turn : Nat)
  | recorded (record : Nat) (label : String)
  /-- a frame of a peer turn that makes no event -/
  | unlabelled
  /-- a status or control frame outside of any turn -/
  | ignored
  | skipped
  deriving DecidableEq

/-- A frame with the turn that was active when the receiver read it. -/
structure ReadFrame where
  frame : Frame
  turn : Option Nat
  deriving DecidableEq

structure LogEntry where
  read : ReadFrame
  disposal : Disposal

/-- A suspended `iter_response_items`. -/
structure TurnIterator where
  turn : Nat
  promptSuggestions : Bool
  resultSeen : Bool := false

def TurnIterator.after (it : TurnIterator) (f : Frame) : Option TurnIterator :=
  if f.type = .promptSuggestion then if f.hasSuggestion && it.resultSeen then none else some it
  else
    match f.parsed with
    | .raises => none
    | .unknown => some it
    | .message _ =>
      if f.type = .result then
        if it.promptSuggestions then some { it with resultSeen := true } else none
      else some it

/-- A suspended `queue.put`, with the recorded size of its frame. -/
structure Putting where
  turn : Nat
  frame : Frame
  size : Nat

structure FlowSystem where
  runtime : SessionRuntime
  queues : Nat → TurnQueue := fun _ => TurnQueue.empty
  deferred : List Frame := []
  putting : Option Putting := none
  iterator : Option TurnIterator := none
  /-- The number of turns that were started. -/
  turns : Nat := 0
  arrived : List ReadFrame := []
  log : List LogEntry := []

inductive FlowEvent
  /-- the receiver reads a frame of the given size -/
  | read (f : Frame) (size : Nat) (env : PeerEnv)
  /-- the suspended `put` finds room -/
  | putResumes
  | receiverFails (nonretry : Bool) (size : Nat)
  | receiverEnds
  /-- the end of `start_turn` -/
  | startTurn (binding : RunBinding) (mode : PermissionMode) (now : Nat)
  | iterate (promptSuggestions : Bool)
  /-- the iterator goes on to its next frame -/
  | take
  /-- the iterator is closed, is cancelled or waits for no suggestion any more -/
  | iteratorStops
  /-- `quiesce_turn_security` up to its first await -/
  | quiesce
  /-- the last section of `finish_turn` -/
  | finishTurn (tainted keepWarm : Bool) (env : Nat → PeerEnv) (now : Nat)

def SessionRuntime.disposal (r : SessionRuntime) (env : PeerEnv) (f : Frame) : Disposal :=
  match (r.observeUnsolicited env f).recorded with
  | some (record, label) => .recorded record label
  | none =>
    if f.skipped then .skipped
    else if r.unsolicitedActive || f.opensPeer then .unlabelled
    else .ignored

/-- The log of `observeUnread` for frames read while `turn` was active. -/
def SessionRuntime.unreadLog (r : SessionRuntime) (turn : Option Nat) : List (PeerEnv × Frame) → List LogEntry
  | [] => []
  | (env, f) :: rest =>
    ⟨⟨f, turn⟩, r.disposal env f⟩ :: (r.observeUnsolicited env f).runtime.unreadLog turn rest

namespace FlowSystem

/-- A runtime whose `connect` has returned. -/
def init (key : String) (options : RuntimeOptions) (created now : Nat) : FlowSystem :=
  { runtime := (SessionRuntime.create key options created).connected now }

def setQueue (s : FlowSystem) (turn : Nat) (q : TurnQueue) : FlowSystem :=
  { s with queues := Function.update s.queues turn q }

/-- The notice of a failed receiver, for which the queue may have no room. -/
def notify (s : FlowSystem) (nonretry : Bool) (size : Nat) : FlowSystem :=
  match s.runtime.activeQueue with
  | none => s
  | some turn =>
    match (s.queues turn).putNowait (.error nonretry) size with
    | .ok q => s.setQueue turn q
    | .error _ => s

def setRuntime (s : FlowSystem) (r : SessionRuntime) : FlowSystem := { s with runtime := r }

/-- The exception handler and the `finally` block of `_receiver_loop`. -/
def receiverFails (s : FlowSystem) (nonretry : Bool) (size : Nat) : FlowSystem :=
  (s.notify nonretry size).setRuntime s.runtime.poison.receiverStopped

/-- `await queue.put(raw)` up to its first suspension; a frame that can never fit makes it raise. -/
def putFrame (s : FlowSystem) (turn : Nat) (f : Frame) (size : Nat) : FlowSystem :=
  match (s.queues turn).itemSize size with
  | .error _ => s.receiverFails true 1
  | .ok n =>
    if (s.queues turn).fits n then s.setQueue turn ((s.queues turn).enqueue (.frame f) n)
    else { s with putting := some ⟨turn, f, n⟩ }

def arrive (s : FlowSystem) (f : Frame) : FlowSystem :=
  { s with arrived := s.arrived.concat ⟨f, s.runtime.activeQueue⟩ }

/-- The observer gets a frame that no turn waits for. -/
def observe (s : FlowSystem) (f : Frame) (env : PeerEnv) : FlowSystem :=
  { s with
    runtime := s.runtime.receiveIdle env f
    log := s.log.concat ⟨⟨f, none⟩, s.runtime.disposal env f⟩ }

/-- One turn of `_receiver_loop`. -/
def read (s : FlowSystem) (f : Frame) (size : Nat) (env : PeerEnv) : FlowSystem :=
  match s.runtime.activeQueue with
  | some turn => (s.arrive f).putFrame turn f size
  | none => (s.arrive f).observe f env

def nextItem (s : FlowSystem) (turn : Nat) : Option (QueueItem × FlowSystem) :=
  match s.deferred with
  | f :: rest => some (.frame f, { s with deferred := rest })
  | [] =>
    match (s.queues turn).getNowait with
    | none => none
    | some (item, q) => some (item, s.setQueue turn q)

/-- The body of the loop of `iter_response_items`. -/
def consume (s : FlowSystem) (it : TurnIterator) : QueueItem → FlowSystem
  | .error _ => { s with iterator := none }
  | .frame f =>
    if it.resultSeen ∧ f.type ≠ .promptSuggestion then
      { s with deferred := s.deferred ++ [f], iterator := none }
    else
      { s with
        log := s.log.concat ⟨⟨f, some it.turn⟩, .delivered it.turn⟩
        iterator := it.after f }

/-- The unread frames of the active turn as `finish_turn` collects them. -/
def unread (s : FlowSystem) (env : Nat → PeerEnv) : List (PeerEnv × Frame) :=
  let queued :=
    match s.runtime.activeQueue with
    | none => []
    | some turn => (s.queues turn).frames.filter fun f => !f.skipped
  (s.deferred ++ queued).zipIdx.map fun p => (env p.2, p.1)

def finishTurn (s : FlowSystem) (tainted keepWarm : Bool) (env : Nat → PeerEnv) (now : Nat) : FlowSystem :=
  { s with
    runtime := s.runtime.finishTurn (s.unread env) tainted keepWarm now
    queues :=
      match s.runtime.activeQueue with
      | none => s.queues
      | some turn => Function.update s.queues turn (s.queues turn).drained
    deferred := []
    log := s.log ++ s.runtime.releaseQueue.unreadLog s.runtime.activeQueue (s.unread env) }

def step (s : FlowSystem) : FlowEvent → Option FlowSystem
  | .read f size env =>
    match s.runtime.receiver, s.putting with
    | .live, none => some (s.read f size env)
    | _, _ => none
  | .putResumes =>
    match s.putting with
    | some p =>
      if (s.queues p.turn).fits p.size then
        some ({ s with putting := none }.setQueue p.turn
          ((s.queues p.turn).enqueue (.frame p.frame) p.size))
      else none
    | none => none
  | .receiverFails nonretry size =>
    match s.runtime.receiver, s.putting with
    | .live, none => some (s.receiverFails nonretry size)
    | _, _ => none
  | .receiverEnds =>
    match s.runtime.receiver, s.putting with
    | .live, none => some (s.setRuntime s.runtime.receiverStopped)
    | _, _ => none
  | .startTurn binding mode now =>
    if s.runtime.startBlocked || !s.deferred.isEmpty || s.runtime.bridge.callback.isSome then none
    else some { s with
      runtime := (s.runtime.setPermissionMode mode).ownTurn s.turns binding mode now
      queues := Function.update s.queues s.turns TurnQueue.empty
      turns := s.turns + 1 }
  | .iterate promptSuggestions =>
    match s.runtime.activeQueue, s.iterator with
    | some turn, none => some { s with iterator := some { turn, promptSuggestions } }
    | _, _ => none
  | .take =>
    match s.iterator with
    | some it => (s.nextItem it.turn).map fun p => p.2.consume it p.1
    | none => none
  | .iteratorStops => some { s with iterator := none }
  | .quiesce => some (s.setRuntime s.runtime.dropBinding)
  | .finishTurn tainted keepWarm env now =>
    match s.runtime.activeQueue with
    | some _ => some (s.finishTurn tainted keepWarm env now)
    | none => none

end FlowSystem

end PrivaCloud.AgentRunner
