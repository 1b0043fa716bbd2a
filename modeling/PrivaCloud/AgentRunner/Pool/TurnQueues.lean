import PrivaCloud.AgentRunner.Pool.PoolSystem
import PrivaCloud.AgentRunner.Runtime.FrameFlow

/-!
# The queues of the turns of a pool

The pool with the queue that each `RuntimeTurnClient` reads, which has the number of its task: the receivers put
frames into it, a receiver that fails and a close put a notice, `finish_turn` empties it. A `put` on a full queue
suspends the receiver.
-/

namespace PrivaCloud.AgentRunner

open Framework

structure TurnQueues where
  pool : PoolSystem
  queues : Nat → TurnQueue := fun _ => TurnQueue.empty
  /-- the `put` in which the receiver of a runtime is suspended -/
  putting : Nat → Option Putting := fun _ => none
  /-- an iterator of the turn took a notice and raised -/
  raised : Nat → Bool := fun _ => false

inductive TurnQueueEvent
  /-- a section of the pool that is not one of those below -/
  | pool (e : PoolEvent)
  /-- the receiver of `r` reads a frame; `noticeSize` is the size of the notice if it can never fit -/
  | read (r : Nat) (f : Frame) (size noticeSize : Nat) (env : PeerEnv)
      (memory : RuntimeMemorySnapshot)
  | putResumes (r : Nat)
  /-- the stream of `r` raises -/
  | receiverFails (r : Nat) (nonretry : Bool) (noticeSize : Nat)
  /-- an iterator of the turn takes the next item of its queue -/
  | take (t : Nat)

namespace TurnQueues

def init (capacity : Option Nat) (memory : RuntimeMemorySnapshot) : TurnQueues :=
  { pool := .init capacity memory }

def setQueue (s : TurnQueues) (t : Nat) (q : TurnQueue) : TurnQueues :=
  { s with queues := Function.update s.queues t q }

def setPutting (s : TurnQueues) (r : Nat) (p : Option Putting) : TurnQueues :=
  { s with putting := Function.update s.putting r p }

/-- The notice of a receiver that failed, for which the queue may have no room. -/
def notify (s : TurnQueues) (r : Nat) (nonretry : Bool) (size : Nat) : TurnQueues :=
  match (s.pool.heap r).activeQueue with
  | none => s
  | some t =>
    match (s.queues t).putNowait (.error nonretry) size with
    | .ok q => s.setQueue t q
    | .error _ => s

def closeNoticeSize : Nat := 56

/-- `_close_physical` empties the active queue and puts its notice there. -/
def notifyClose (s : TurnQueues) (r : Nat) : TurnQueues :=
  match (s.pool.heap r).activeQueue with
  | none => s
  | some t =>
    match (s.queues t).drained.putNowait (.error false) closeNoticeSize with
    | .ok q => s.setQueue t q
    | .error _ => s.setQueue t (s.queues t).drained

/-- `finish_turn` empties the active queue. -/
def drainTurn (s : TurnQueues) (r : Nat) : TurnQueues :=
  match (s.pool.heap r).activeQueue with
  | none => s
  | some t => s.setQueue t (s.queues t).drained

def around (s : TurnQueues) : PoolEvent → TurnQueues
  | .evolve r .closeBegins _ => s.notifyClose r
  | .evolve r .receiverEnds _ => s.setPutting r none
  | .quiesced t .. =>
    match s.pool.tasks t with
    | .releasing r _ _ => s.drainTurn r
    | _ => s
  | _ => s

/-- The receiver ends cleanly when it waits for its stream, or wherever it is cancelled. -/
def enabled (s : TurnQueues) : PoolEvent → Bool
  | .evolve _ (.frame ..) _ | .evolve _ .receiverFails _ => false
  | .evolve r .receiverEnds _ =>
    (s.putting r).isNone || (s.pool.heap r).receiver = .cancelled
  | _ => true

def setPool (s : TurnQueues) (pool : PoolSystem) : TurnQueues := { s with pool := pool }

/-- The exception handler and the `finally` block of `_receiver_loop`. -/
def receiverFails (s : TurnQueues) (r : Nat) (nonretry : Bool) (noticeSize : Nat) : Option TurnQueues :=
  (s.pool.step (.evolve r .receiverFails {})).map (s.notify r nonretry noticeSize).setPool

/-- `await queue.put(raw)` up to its first suspension. -/
def putFrame (s : TurnQueues) (r t : Nat) (f : Frame) (size noticeSize : Nat) : Option TurnQueues :=
  match (s.queues t).itemSize size with
  | .error _ => s.receiverFails r true noticeSize
  | .ok n =>
    if (s.queues t).fits n then some (s.setQueue t ((s.queues t).enqueue (.frame f) n))
    else some (s.setPutting r (some ⟨t, f, n⟩))

def step (s : TurnQueues) : TurnQueueEvent → Option TurnQueues
  | .pool e => if s.enabled e then (s.pool.step e).map (s.around e).setPool else none
  | .read r f size noticeSize env memory =>
    if (s.pool.heap r).receiver = .live ∧ s.putting r = none then
      match (s.pool.heap r).activeQueue with
      | some t => s.putFrame r t f size noticeSize
      | none => (s.pool.step (.evolve r (.frame env f) memory)).map s.setPool
    else none
  | .putResumes r =>
    match s.putting r with
    | some p =>
      if (s.queues p.turn).fits p.size then
        some ((s.setPutting r none).setQueue p.turn
          ((s.queues p.turn).enqueue (.frame p.frame) p.size))
      else none
    | none => none
  | .receiverFails r nonretry noticeSize =>
    if s.putting r = none then s.receiverFails r nonretry noticeSize else none
  | .take t =>
    match (s.queues t).getNowait with
    | none => none
    | some (item, q) =>
      some { s.setQueue t q with
        raised := Function.update s.raised t (s.raised t || item.frame?.isNone) }

end TurnQueues

end PrivaCloud.AgentRunner
