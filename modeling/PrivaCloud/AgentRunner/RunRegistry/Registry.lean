import Mathlib.Data.List.Sort
import Mathlib.Logic.Function.Basic
import PrivaCloud.Framework.Dict
import PrivaCloud.Framework.Run
import PrivaCloud.AgentRunner.RunRegistry.Record

/-!
# The run registry

`run_registry.RunRegistry` with the activity slots that its records hold. Records are objects of
a heap, since both indexes compare them by identity. Every operation of the class is one section:
none of them awaits.
-/

namespace PrivaCloud.AgentRunner

open Framework

/-- `TERMINAL_TTL_SECONDS` -/
def terminalTtlSeconds : ℚ := 600
/-- `MAX_TERMINAL_RECORDS` -/
def maxTerminalRecords : Nat := 32
/-- `MAX_TERMINAL_BYTES` -/
def maxTerminalBytes : Nat := 32 * 1024 * 1024

/-- Identity of a `RunRecord` object. -/
abbrev RecordId := Nat

structure RunRegistry (Data : Type) where
  records : RecordId → RunRecord Data
  size : Nat
  byRunId : Dict String RecordId
  bySessionId : Dict String RecordId
  /-- Slots that `activity.enter` and `activity.leave` count for the registry. -/
  activity : Nat

inductive RunAlreadyActiveError
  | run (runId : String)
  | session (sessionId : String) (owner : RecordId)

namespace RunRegistry

variable {Data : Type}

def empty : RunRegistry Data := ⟨fun _ => default, 0, ∅, ∅, 0⟩

def liveRef (reg : RunRegistry Data) (r : RecordId) : Bool := (reg.records r).live

def indexed (reg : RunRegistry Data) : List RecordId :=
  (reg.byRunId.values ++ reg.bySessionId.values).dedup

/-- The records with an end time, oldest end first. -/
def terminal (reg : RunRegistry Data) : List RecordId :=
  (reg.indexed.filter fun r => (reg.records r).endedAt.isSome).insertionSort
    (fun a b => (reg.records a).endedAt.getD 0 ≤ (reg.records b).endedAt.getD 0)

/-- `now - (record.ended_at or now) > TERMINAL_TTL_SECONDS` -/
def expired (reg : RunRegistry Data) (now : ℚ) (r : RecordId) : Bool :=
  match (reg.records r).endedAt with
  | none => false
  | some t => t ≠ 0 && terminalTtlSeconds < now - t

def bytesOf (reg : RunRegistry Data) (rs : List RecordId) : Nat :=
  (rs.map fun r => (reg.records r).bufferedBytes).sum

/-- The overflow loop of `sweep`: what is left after the oldest records are popped. -/
def retain (reg : RunRegistry Data) : List RecordId → List RecordId
  | [] => []
  | r :: rs =>
    if maxTerminalRecords < (r :: rs).length ∨ maxTerminalBytes < reg.bytesOf (r :: rs) then
      retain reg rs
    else r :: rs

def retained (reg : RunRegistry Data) (now : ℚ) : List RecordId :=
  reg.retain (reg.terminal.filter fun r => !reg.expired now r)

def stale (reg : RunRegistry Data) (now : ℚ) : List RecordId :=
  reg.terminal.filter fun r => r ∉ reg.retained now

/-- `_drop` of every stale record. -/
def sweep (reg : RunRegistry Data) (now : ℚ) : RunRegistry Data :=
  { reg with
    byRunId := reg.byRunId.popValues (reg.stale now)
    bySessionId := reg.bySessionId.popValues (reg.stale now) }

def liveAt (reg : RunRegistry Data) (index : Dict String RecordId) (key : Option String) : Option RecordId :=
  match truthy key with
  | none => none
  | some k =>
    match index.lookup k with
    | none => none
    | some r => if reg.liveRef r then some r else none

/-- Insert a new record; `uuid` is the fresh `uuid4` used when no run id is given. -/
def insertRecord (reg : RunRegistry Data) (sessionId runId : Option String) (uuid : String) :
    RunRegistry Data :=
  let key := (truthy runId).getD uuid
  { records := Function.update reg.records reg.size { runId := key, sessionId := sessionId }
    size := reg.size + 1
    byRunId := reg.byRunId.insert key reg.size
    bySessionId := match truthy sessionId with
      | none => reg.bySessionId
      | some s => reg.bySessionId.insert s reg.size
    activity := reg.activity + 1 }

def create (reg : RunRegistry Data) (now : ℚ) (sessionId runId : Option String) (uuid : String) :
    RunRegistry Data × Except RunAlreadyActiveError RecordId :=
  let reg := reg.sweep now
  match reg.liveAt reg.byRunId runId with
  | some _ => (reg, .error (.run (runId.getD "")))
  | none =>
    match reg.liveAt reg.bySessionId sessionId with
    | some r => (reg, .error (.session (sessionId.getD "") r))
    | none => (reg.insertRecord sessionId runId uuid, .ok reg.size)

def indexRunId (reg : RunRegistry Data) (record : RecordId) (runId : String) : RunRegistry Data :=
  if runId ≠ "" ∧ runId ∉ reg.byRunId then
    { reg with byRunId := reg.byRunId.insert runId record }
  else reg

/-- The write half of `index_session`: pop the old key, set the new one. -/
def rekeySession (reg : RunRegistry Data) (record : RecordId) (sessionId : String) : RunRegistry Data :=
  { reg with
    records := Function.update reg.records record
      { reg.records record with sessionId := some sessionId }
    bySessionId := (match truthy (reg.records record).sessionId with
      | none => reg.bySessionId
      | some old => if old = sessionId then reg.bySessionId else reg.bySessionId.erase old).insert
        sessionId record }

def indexSession (reg : RunRegistry Data) (record : RecordId) (sessionId : String) :
    RunRegistry Data × Except RunAlreadyActiveError Unit :=
  if sessionId = "" then (reg, .ok ())
  else
    match reg.liveAt reg.bySessionId (some sessionId) with
    | some occupied =>
      if occupied = record then (reg.rekeySession record sessionId, .ok ())
      else (reg, .error (.session sessionId occupied))
    | none => (reg.rekeySession record sessionId, .ok ())

def get (reg : RunRegistry Data) (now : ℚ) (sessionId runId : Option String) :
    RunRegistry Data × Option RecordId :=
  let reg := reg.sweep now
  match (truthy runId).bind reg.byRunId.lookup with
  | some r => (reg, some r)
  | none => (reg, (truthy sessionId).bind reg.bySessionId.lookup)

def liveForSession (reg : RunRegistry Data) (now : ℚ) (sessionId : String) : Option RecordId :=
  match (reg.get now (some sessionId) none).2 with
  | none => none
  | some r => if reg.liveRef r then some r else none

/-- `finish` up to its trailing sweep. -/
def settle (reg : RunRegistry Data) (record : RecordId) (status : RunStatus) (endedAt : ℚ) : RunRegistry Data :=
  { reg with
    records := Function.update reg.records record
      { reg.records record with status := status, endedAt := some endedAt }
    activity := reg.activity - 1 }

def finish (reg : RunRegistry Data) (record : RecordId) (status : RunStatus) (endedAt now : ℚ) :
    RunRegistry Data :=
  if (reg.records record).status ≠ .running then reg
  else (reg.settle record status endedAt).sweep now

def recordEvent (codec : Codec Data) (reg : RunRegistry Data) (record : RecordId)
    (eventType : EventType) (data : Data) : RunRegistry Data :=
  { reg with
    records := Function.update reg.records record
      ((reg.records record).recordEvent codec eventType data) }

/-- One turn of the loop in `finish_cancelled`. -/
def finishIfCancelled (codec : Codec Data) (endData : RunStatus → Data) (endedAt now : ℚ)
    (reg : RunRegistry Data) (record : RecordId) : RunRegistry Data :=
  if reg.liveRef record ∧ (reg.records record).cancelled then
    let reg := reg.finish record .aborted endedAt now
    reg.recordEvent codec record .runEnd (endData (reg.records record).status)
  else reg

def finishCancelled (codec : Codec Data) (endData : RunStatus → Data) (endedAt now : ℚ)
    (reg : RunRegistry Data) : RunRegistry Data :=
  reg.indexed.foldl (finishIfCancelled codec endData endedAt now) reg

def listActive (reg : RunRegistry Data) (now : ℚ) : RunRegistry Data × List RecordId :=
  let reg := reg.sweep now
  (reg, reg.byRunId.values.dedup.filter reg.liveRef)

def setCancelled (reg : RunRegistry Data) (record : RecordId) : RunRegistry Data :=
  { reg with
    records := Function.update reg.records record
      { reg.records record with cancelled := true } }

end RunRegistry

/-- A call on the registry, or an event recorded on one of its records. -/
inductive RegistryOp (Data : Type)
  | create (now : ℚ) (sessionId runId : Option String) (uuid : String)
  | indexRunId (record : RecordId) (runId : String)
  | indexSession (record : RecordId) (sessionId : String)
  | finish (record : RecordId) (status : RunStatus) (endedAt now : ℚ)
  | get (now : ℚ) (sessionId runId : Option String)
  | sweep (now : ℚ)
  | listActive (now : ℚ)
  | finishCancelled (endData : RunStatus → Data) (endedAt now : ℚ)
  | recordEvent (record : RecordId) (eventType : EventType) (data : Data)
  | setCancelled (record : RecordId)

namespace RunRegistry

variable {Data : Type}

/-- Calls name records that exist, `finish` is given a terminal status, and `uuid4` is fresh. -/
def Enabled (reg : RunRegistry Data) : RegistryOp Data → Prop
  | .create _ _ _ uuid => uuid ≠ "" ∧ uuid ∉ reg.byRunId
  | .indexRunId r _ | .indexSession r _ | .recordEvent r _ _ | .setCancelled r => r < reg.size
  | .finish r status _ _ => r < reg.size ∧ status ≠ .running
  | .get .. | .sweep _ | .listActive _ | .finishCancelled .. => True

instance (reg : RunRegistry Data) (op : RegistryOp Data) : Decidable (reg.Enabled op) := by
  cases op <;> dsimp only [Enabled] <;> infer_instance

def apply (codec : Codec Data) (reg : RunRegistry Data) : RegistryOp Data → RunRegistry Data
  | .create now sessionId runId uuid => (reg.create now sessionId runId uuid).1
  | .indexRunId r runId => reg.indexRunId r runId
  | .indexSession r sessionId => (reg.indexSession r sessionId).1
  | .finish r status endedAt now => reg.finish r status endedAt now
  | .get now sessionId runId => (reg.get now sessionId runId).1
  | .sweep now => reg.sweep now
  | .listActive now => (reg.listActive now).1
  | .finishCancelled endData endedAt now => reg.finishCancelled codec endData endedAt now
  | .recordEvent r eventType data => reg.recordEvent codec r eventType data
  | .setCancelled r => reg.setCancelled r

def step (codec : Codec Data) (reg : RunRegistry Data) (op : RegistryOp Data) : Option (RunRegistry Data) :=
  if reg.Enabled op then some (reg.apply codec op) else none

end RunRegistry

end PrivaCloud.AgentRunner
