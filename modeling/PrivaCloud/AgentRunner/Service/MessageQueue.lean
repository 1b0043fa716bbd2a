import Mathlib.Algebra.GroupWithZero.Nat
import PrivaCloud.Framework.Run
import PrivaCloud.AgentRunner.Service.Attempts

/-!
# The mid-run message queue

`queue` and `queue_cancel` frames of any attached socket (`routers.agent._ws_reader`), each handled in one
section, meet the message loop of `service.agent_run_events`, which submits one entry at the end of each
turn. Serial numbers keep accepted entries with equal ids apart.
-/

namespace PrivaCloud.AgentRunner

open Framework

/-- `_MAX_QUEUED_USER_BYTES` -/
def maxQueuedUserBytes : Nat := 8 * 1024 * 1024
/-- The `maxsize` of `pending_user_msgs`. -/
def maxQueuedUserMessages : Nat := 32

structure QueuedImage where
  data : Option String
  mediaType : Option String
  deriving DecidableEq

structure QueuedEntry where
  id : String
  text : String
  /-- The values of each attachment dict, as text. -/
  attachments : List (List (Option String)) := []
  images : List QueuedImage := []
  deriving DecidableEq

def QueuedImage.size (image : QueuedImage) : Nat :=
  ((image.data.getD "").toList.filter (·.toNat < 128)).length +
    (image.mediaType.getD "").utf8ByteSize

/-- `_queued_entry_size` -/
def QueuedEntry.size (e : QueuedEntry) : Nat :=
  e.id.utf8ByteSize + e.text.utf8ByteSize +
    (e.attachments.map fun values => (values.map fun v => (v.getD "").utf8ByteSize).sum).sum +
    (e.images.map QueuedImage.size).sum

inductive QueueReply
  | queued (id : String)
  | queueCancelled (id : String)
  | queueRejected (id message : String)

structure WaitingEntry where
  serial : Nat
  entry : QueuedEntry
  deriving DecidableEq

/-- The retry sentinels of the pump: retryable ones and fatal ones. -/
inductive PumpSignal
  | retry
  | fatal
  deriving DecidableEq

inductive RunPhase
  | created
  /-- in an attempt, before its message loop -/
  | starting
  | streaming (signal : Option PumpSignal) (drainingBg : Bool)
  /-- in `_flush_next_queued`, awaiting the query of the popped entry -/
  | flushing (w : WaitingEntry) (drainingBg : Bool)
  /-- after the message loop: quiesce, settle the title, sleep, release the runtime -/
  | closing (signal : Option PumpSignal)
  /-- between two attempts -/
  | retrying
  /-- `agent_run_events` is over, the record is still running -/
  | ended
  | finished
  deriving DecidableEq

structure MessageRun where
  phase : RunPhase := .created
  attempt : Nat := 1
  /-- `record.queue_out[0]` -/
  queueOut : Option (List WaitingEntry) := none
  aborted : Bool := false
  /-- The number of entries acknowledged with `queued`, which are numbered from 0. -/
  acknowledged : Nat := 0
  /-- The entries acknowledged with `queue_cancelled`. -/
  cancelled : List Nat := []
  /-- The entries submitted to the client and announced with `queue_flush`. -/
  flushed : List Nat := []
  deriving DecidableEq

inductive MessageEvent
  /-- a queue frame, with the message of its validation error if there is one -/
  | queue (entry : QueuedEntry) (invalid : Option String)
  | queueCancel (id : String)
  | abort
  /-- the run task is cancelled -/
  | shutdown
  | begin
  | attemptStarted
  | signal (s : PumpSignal)
  | turnEnded (outstanding : Bool)
  /-- a quiet background drain is given up -/
  | idleStop
  | stopped
  | flushed
  /-- an exception; `again` says whether the handlers of the attempt loop go on -/
  | flushRaises (again : Bool)
  | attemptRaises (again : Bool)
  /-- the attempt returns; `lost` says whether a fatal signal met a missing resume target -/
  | closed (lost : Bool)
  | nextAttempt
  | abandon
  | finish

namespace MessageRun

def init : MessageRun := {}

def queuedBytes (q : List WaitingEntry) : Nat := (q.map (·.entry.size)).sum

def handleQueue (s : MessageRun) (entry : QueuedEntry) (invalid : Option String) : MessageRun × QueueReply :=
  match s.queueOut, invalid with
  | none, _ => (s, .queueRejected entry.id "No active stream to queue into")
  | some _, some message => (s, .queueRejected entry.id message)
  | some q, none =>
    if maxQueuedUserBytes < queuedBytes q + entry.size then
      (s, .queueRejected entry.id "Queued message byte limit reached (8 MiB)")
    else if maxQueuedUserMessages ≤ q.length then
      (s, .queueRejected entry.id "Queued message limit reached (32)")
    else
      ({ s with
        queueOut := some (q ++ [⟨s.acknowledged, entry⟩])
        acknowledged := s.acknowledged + 1 }, .queued entry.id)

/-- The drain and rebuild of the reader leaves out the first entry with this id. -/
def handleQueueCancel (s : MessageRun) (id : String) : MessageRun × QueueReply :=
  match s.queueOut with
  | none => (s, .queueRejected id "No active stream to cancel from")
  | some q =>
    match q.find? (·.entry.id = id) with
    | some w =>
      ({ s with
        queueOut := some (q.eraseP (·.entry.id = id))
        cancelled := s.cancelled ++ [w.serial] }, .queueCancelled id)
    | none => (s, .queueRejected id ("Queued id not found: " ++ id))

/-- The attempt loop goes on, unless this was the last attempt. -/
def afterFailure (s : MessageRun) (again : Bool) : MessageRun :=
  { s with phase := if again && decide (s.attempt < maxAttempts) then .retrying else .ended }

def endTurn (s : MessageRun) (signal : Option PumpSignal) (drainingBg outstanding : Bool) : MessageRun :=
  match signal, s.queueOut with
  | some k, _ => { s with phase := .closing (some k) }
  | none, some (w :: rest) => { s with phase := .flushing w drainingBg, queueOut := some rest }
  | none, _ => { s with phase := if outstanding then .streaming none true else .closing none }

def closeAttempt (s : MessageRun) (lost : Bool) : Option PumpSignal → MessageRun
  | none => { s with phase := .ended }
  | some .retry => s.afterFailure true
  | some .fatal => s.afterFailure lost

def step (s : MessageRun) : MessageEvent → Option MessageRun
  | .queue entry invalid => some (s.handleQueue entry invalid).1
  | .queueCancel id => some (s.handleQueueCancel id).1
  | .abort => some { s with aborted := true }
  | .shutdown =>
    match s.phase with
    | .finished => none
    | _ => some { s with phase := .ended, aborted := true }
  | .begin =>
    match s.phase with
    | .created => some { s with phase := .starting, queueOut := some [] }
    | _ => none
  | .attemptStarted =>
    match s.phase with
    | .starting => some { s with phase := .streaming none false }
    | _ => none
  | .signal k =>
    match s.phase with
    | .streaming _ d => some { s with phase := .streaming (some k) d }
    | _ => none
  | .turnEnded outstanding =>
    match s.phase with
    | .streaming signal d => some (s.endTurn signal d outstanding)
    | _ => none
  | .idleStop =>
    match s.phase with
    | .streaming signal true => some { s with phase := .closing signal }
    | _ => none
  | .stopped =>
    match s.phase, s.aborted with
    | .streaming signal _, true => some { s with phase := .closing signal }
    | _, _ => none
  | .flushed =>
    match s.phase with
    | .flushing w d => some
        { s with phase := .streaming none d, flushed := s.flushed ++ [w.serial] }
    | _ => none
  | .flushRaises again =>
    match s.phase with
    | .flushing .. => some (s.afterFailure again)
    | _ => none
  | .attemptRaises again =>
    match s.phase with
    | .starting | .streaming .. | .closing _ => some (s.afterFailure again)
    | _ => none
  | .closed lost =>
    match s.phase with
    | .closing signal => some (s.closeAttempt lost signal)
    | _ => none
  | .nextAttempt =>
    match s.phase with
    | .retrying => some { s with phase := .starting, attempt := s.attempt + 1 }
    | _ => none
  | .abandon =>
    match s.phase, s.aborted with
    | .retrying, true => some { s with phase := .ended }
    | _, _ => none
  | .finish =>
    match s.phase with
    | .ended => some { s with phase := .finished, queueOut := none }
    | _ => none

end MessageRun

end PrivaCloud.AgentRunner
