import Mathlib.Logic.Function.Basic
import PrivaCloud.Framework.Keyed
import PrivaCloud.Framework.Run
import PrivaCloud.AgentRunner.BoundedQueue
import PrivaCloud.AgentRunner.RunRegistry.Record

/-!
# Followers of a run

`routers.agent._ws_follow`: a socket subscribes, may announce the replay in an `attach_ok` frame, replays a
snapshot of the buffer and follows its subscriber queue, while `record_event` appends, trims and fans out.
Each follower is a state machine between its awaited sends; any number of them shares the record.
-/

namespace PrivaCloud.AgentRunner

open Framework

/-- `MAX_SUBSCRIBER_EVENTS` -/
def maxSubscriberEvents : Nat := 256
/-- `MAX_SUBSCRIBER_BYTES` -/
def maxSubscriberBytes : Nat := 4 * 1024 * 1024

inductive FollowerState (Data : Type)
  | detached
  /-- awaiting the send of `attach_ok` -/
  | attaching
  /-- replaying the rest of the snapshot -/
  | replaying (rest : List (RunEvent Data)) (outstanding : List Data)
  /-- sending the outstanding permission requests, unsequenced -/
  | restoring (outstanding : List Data)
  | following
  | ended

structure Follower (Data : Type) where
  state : FollowerState Data := .detached
  sinceSeq : Nat := 0
  queue : BoundedAsyncQueue (RunEvent Data) :=
    { maxsize := maxSubscriberEvents, maxBytes := maxSubscriberBytes }
  /-- The queue is in `record.subscribers`. -/
  subscribed : Bool := false
  /-- The `replay_gap` flag of the `attach_ok` frame, once that frame is built. -/
  replayGap : Option Bool := none
  sentThrough : Nat := 0
  /-- The sequenced events handed to the socket. -/
  sent : List (RunEvent Data) := []
  /-- `record.next_seq` at the moment of the replay snapshot. -/
  snapshotNext : Nat := 0

/-- One record with its followers, and everything that was ever recorded. -/
structure Broadcast (Data : Type) where
  record : RunRecord Data
  history : List (RunEvent Data) := []
  followers : Nat → Follower Data := fun _ => {}

inductive BroadcastEvent (Data : Type)
  | record (eventType : EventType) (data : Data)
  | attach (i sinceSeq : Nat) (sendAttachOk : Bool) (outstanding : List Data)
  | attachOkSent (i : Nat) (outstanding : List Data)
  | replayNext (i : Nat)
  | restoreNext (i : Nat)
  | followNext (i : Nat)
  | keepalive (i : Nat)
  | disconnect (i : Nat)

namespace Follower

variable {Data : Type}

/-- The fan-out of `record_event` to one subscriber: a queue that is full is detached, drained
and left with the overflow marker. -/
def offer (codec : Codec Data) (e : RunEvent Data) (f : Follower Data) : Follower Data :=
  if f.subscribed then
    match f.queue.putNowait e (codec.approximateSize e.seq e.eventType e.data) with
    | .ok q => { f with queue := q }
    | .error _ =>
      { f with
        subscribed := false
        queue := f.queue.drained.enqueue ⟨0, .subscriberOverflow, codec.emptyObject⟩
          (max 1 (codec.approximateSize 0 .subscriberOverflow codec.emptyObject)) }
  else f

/-- The `finally` block of the follower. -/
def finish (f : Follower Data) : Follower Data := { f with state := .ended, subscribed := false }

/-- Take the replay snapshot and start to replay it. -/
def snapshot (r : RunRecord Data) (outstanding : List Data) (f : Follower Data) : Follower Data :=
  { f with
    state := .replaying (r.replaySince f.sinceSeq) outstanding
    snapshotNext := r.nextSeq }

/-- `subscribe`, then the `attach_ok` frame if one is sent. -/
def attach (r : RunRecord Data) (sinceSeq : Nat) (sendAttachOk : Bool) (outstanding : List Data) :
    Follower Data :=
  let f : Follower Data := { sinceSeq := sinceSeq, sentThrough := sinceSeq, subscribed := true }
  if sendAttachOk then
    { f with state := .attaching, replayGap := some (r.hasReplayGap sinceSeq) }
  else f.snapshot r outstanding

def replay (f : Follower Data) (e : RunEvent Data) (rest : List (RunEvent Data))
    (outstanding : List Data) : Follower Data :=
  let f := { f with sentThrough := e.seq, state := .replaying rest outstanding }
  if e.eventType = .runEnd then f.finish
  else if e.eventType = .permissionRequest then f
  else { f with sent := f.sent ++ [e] }

def follow (f : Follower Data) (e : RunEvent Data) (q : BoundedAsyncQueue (RunEvent Data)) : Follower Data :=
  let f := { f with queue := q }
  if e.eventType = .subscriberOverflow then f.finish
  else if e.seq ≤ f.sentThrough then f
  else
    let f := { f with sentThrough := e.seq }
    if e.eventType = .runEnd then f.finish
    else { f with sent := f.sent ++ [e] }

end Follower

namespace Broadcast

variable {Data : Type}

def init (runId : String) : Broadcast Data := { record := { runId := runId } }

def setFollower (s : Broadcast Data) (i : Nat) (f : Follower Data) : Broadcast Data :=
  { s with followers := Function.update s.followers i f }

/-- `record_event` with its fan-out. -/
def publish (codec : Codec Data) (s : Broadcast Data) (eventType : EventType) (data : Data) : Broadcast Data :=
  if eventType = .keepalive then s
  else
    let e : RunEvent Data := ⟨s.record.nextSeq, eventType, data⟩
    { record := s.record.recordEvent codec eventType data
      history := s.history ++ [e]
      followers := fun i => (s.followers i).offer codec e }

def step (codec : Codec Data) (s : Broadcast Data) : BroadcastEvent Data → Option (Broadcast Data)
  | .record eventType data => some (s.publish codec eventType data)
  | .attach i sinceSeq sendAttachOk outstanding =>
    match (s.followers i).state with
    | .detached => s.setFollower i (.attach s.record sinceSeq sendAttachOk outstanding)
    | _ => none
  | .attachOkSent i outstanding =>
    match (s.followers i).state with
    | .attaching => s.setFollower i ((s.followers i).snapshot s.record outstanding)
    | _ => none
  | .replayNext i =>
    match (s.followers i).state with
    | .replaying (e :: rest) outstanding =>
      s.setFollower i ((s.followers i).replay e rest outstanding)
    | .replaying [] outstanding =>
      s.setFollower i { s.followers i with state := .restoring outstanding }
    | _ => none
  | .restoreNext i =>
    match (s.followers i).state with
    | .restoring (_ :: rest) => s.setFollower i { s.followers i with state := .restoring rest }
    | .restoring [] => s.setFollower i { s.followers i with state := .following }
    | _ => none
  | .followNext i =>
    match (s.followers i).state, (s.followers i).queue.getNowait with
    | .following, some (e, q) => s.setFollower i ((s.followers i).follow e q)
    | _, _ => none
  | .keepalive i =>
    match (s.followers i).state with
    | .following => some s
    | _ => none
  | .disconnect i =>
    match (s.followers i).state with
    | .detached | .ended => none
    | _ => s.setFollower i (s.followers i).finish

end Broadcast

end PrivaCloud.AgentRunner
