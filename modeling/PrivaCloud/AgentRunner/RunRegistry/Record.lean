import Mathlib.Algebra.GroupWithZero.Nat
import Mathlib.Algebra.Order.Ring.Rat
import Mathlib.Data.Rat.Defs
import Mathlib.Tactic.Common

/-!
# Run records

`run_registry.RunRecord`: the sequence-numbered event buffer of one run, bounded by count and by bytes. The wire
size of an event, the length of its JSON text, is a parameter.
-/

namespace PrivaCloud.AgentRunner

/-- `MAX_BUFFERED_EVENTS` -/
def maxBufferedEvents : Nat := 4000
/-- `MAX_BUFFERED_BYTES` -/
def maxBufferedBytes : Nat := 8 * 1024 * 1024

inductive EventType
  | keepalive
  | userMessage
  | permissionRequest
  | runEnd
  | subscriberOverflow
  | other (name : String)
  deriving DecidableEq

def EventType.name : EventType → String
  | keepalive => "keepalive"
  | userMessage => "user_message"
  | permissionRequest => "permission_request"
  | runEnd => "__run_end__"
  | subscriberOverflow => "__subscriber_overflow__"
  | other name => name

/-- The two size proxies of an event payload, the one field that `record_event` reads, and the
empty payload. -/
structure Codec (Data : Type) where
  eventSize : EventType → Data → Nat
  approximateSize : Nat → EventType → Data → Nat
  uuid : Data → Option String
  emptyObject : Data

structure RunEvent (Data : Type) where
  seq : Nat
  eventType : EventType
  data : Data
  deriving DecidableEq

inductive RunStatus
  | running
  | completed
  | error
  | aborted
  deriving DecidableEq

structure RunRecord (Data : Type) where
  runId : String
  sessionId : Option String := none
  cancelled : Bool := false
  events : List (RunEvent Data) := []
  eventSizes : List Nat := []
  eventBytes : Nat := 0
  firstSeq : Nat := 1
  nextSeq : Nat := 1
  status : RunStatus := .running
  endedAt : Option ℚ := none
  firstUserUuid : Option String := none

namespace RunRecord

variable {Data : Type}

instance : Inhabited (RunRecord Data) := ⟨{ runId := "" }⟩

def live (r : RunRecord Data) : Bool := r.status = .running

def bufferedBytes (r : RunRecord Data) : Nat := r.eventBytes

/-- The trim loop of `record_event`: the number of events to drop from the front. The count
argument is `len(self.events) - trim`. -/
def trim : Nat → Nat → List Nat → Nat
  | _, _, [] => 0
  | count, bytes, size :: sizes =>
    if maxBufferedEvents < count ∨ maxBufferedBytes < bytes then
      trim (count - 1) (bytes - size) sizes + 1
    else 0

/-- `_event_bytes` after the first `n` events are gone. -/
def bytesAfter : Nat → Nat → List Nat → Nat
  | 0, bytes, _ => bytes
  | _ + 1, bytes, [] => bytes
  | n + 1, bytes, size :: sizes => bytesAfter n (bytes - size) sizes

/-- `record_event` without the fan-out to subscribers. A keepalive is not recorded. -/
def recordEvent (codec : Codec Data) (r : RunRecord Data) (eventType : EventType) (data : Data) :
    RunRecord Data :=
  if eventType = .keepalive then r
  else
    let uuid := if eventType = .userMessage ∧ r.firstUserUuid = none
      then codec.uuid data else r.firstUserUuid
    let size := codec.eventSize eventType data
    let events := r.events ++ [⟨r.nextSeq, eventType, data⟩]
    let sizes := r.eventSizes ++ [size]
    let n := trim events.length (r.eventBytes + size) sizes
    { r with
      firstUserUuid := uuid
      nextSeq := r.nextSeq + 1
      events := events.drop n
      eventSizes := sizes.drop n
      eventBytes := bytesAfter n (r.eventBytes + size) sizes
      firstSeq := if n = 0 then r.firstSeq
        else match (events.drop n).head? with
          | some e => e.seq
          | none => r.nextSeq + 1 }

def replaySince (r : RunRecord Data) (sinceSeq : Nat) : List (RunEvent Data) :=
  r.events.filter (fun e => sinceSeq < e.seq)

/-- Whether the requested next event predates the retained tail. -/
def hasReplayGap (r : RunRecord Data) (sinceSeq : Nat) : Bool := sinceSeq + 1 < r.firstSeq

@[simp] theorem recordEvent_status (codec : Codec Data) (r : RunRecord Data) (t : EventType)
    (d : Data) : (r.recordEvent codec t d).status = r.status := by
  unfold recordEvent; split <;> rfl

@[simp] theorem recordEvent_endedAt (codec : Codec Data) (r : RunRecord Data) (t : EventType)
    (d : Data) : (r.recordEvent codec t d).endedAt = r.endedAt := by
  unfold recordEvent; split <;> rfl

@[simp] theorem recordEvent_sessionId (codec : Codec Data) (r : RunRecord Data) (t : EventType)
    (d : Data) : (r.recordEvent codec t d).sessionId = r.sessionId := by
  unfold recordEvent; split <;> rfl

@[simp] theorem recordEvent_runId (codec : Codec Data) (r : RunRecord Data) (t : EventType)
    (d : Data) : (r.recordEvent codec t d).runId = r.runId := by
  unfold recordEvent; split <;> rfl

@[simp] theorem recordEvent_cancelled (codec : Codec Data) (r : RunRecord Data) (t : EventType)
    (d : Data) : (r.recordEvent codec t d).cancelled = r.cancelled := by
  unfold recordEvent; split <;> rfl

/-- Sizes are kept for the buffered events, and the byte count is their sum. -/
structure Measured (r : RunRecord Data) : Prop where
  length : r.eventSizes.length = r.events.length
  bytes : r.eventBytes = r.eventSizes.sum

theorem trim_le (sizes : List Nat) {size : Nat} (hsize : size ≤ maxBufferedBytes) :
    trim (sizes ++ [size]).length (sizes ++ [size]).sum (sizes ++ [size]) ≤ sizes.length := by
  induction sizes with
  | nil =>
    rw [List.nil_append, trim, if_neg]
    · exact Nat.zero_le _
    · simp only [List.length_singleton, List.sum_singleton, maxBufferedEvents]
      omega
  | cons first sizes ih =>
    rw [List.cons_append, trim]
    split
    · rw [List.length_cons, List.length_cons, List.sum_cons, Nat.add_sub_cancel, Nat.add_sub_cancel_left]
      omega
    · exact Nat.zero_le _

theorem bytesAfter_sum (n : Nat) (sizes : List Nat) : bytesAfter n sizes.sum sizes = (sizes.drop n).sum := by
  induction n generalizing sizes with
  | zero => rw [bytesAfter, List.drop_zero]
  | succ n ih =>
    cases sizes with
    | nil => rfl
    | cons size sizes =>
      rw [bytesAfter, List.sum_cons, Nat.add_sub_cancel_left, ih, List.drop_succ_cons]

variable {r : RunRecord Data}

theorem Measured.recordEvent (h : r.Measured) (codec : Codec Data)
    (t : EventType) (d : Data) : (r.recordEvent codec t d).Measured := by
  unfold RunRecord.recordEvent
  split
  · exact h
  · constructor
    · simp [h.length]
    · have hsum : r.eventBytes + codec.eventSize t d =
          (r.eventSizes ++ [codec.eventSize t d]).sum := by simp [h.bytes]
      dsimp only
      rw [hsum]
      exact bytesAfter_sum _ _

variable {codec : Codec Data} {d : Data} {t : EventType}

theorem recordEvent_events
    {e : RunEvent Data} (h : e ∈ (r.recordEvent codec t d).events) :
    e ∈ r.events ∨ e.eventType = t := by
  unfold recordEvent at h
  split at h
  · exact .inl h
  · rcases List.mem_append.mp (List.mem_of_mem_drop h) with h | h
    · exact .inl h
    · rw [List.mem_singleton.mp h]
      exact .inr rfl

theorem recordEvent_last (h : r.Measured)
    (ht : t ≠ .keepalive) (hsize : codec.eventSize t d ≤ maxBufferedBytes) :
    ∃ n, (r.recordEvent codec t d).events = r.events.drop n ++ [⟨r.nextSeq, t, d⟩] := by
  unfold recordEvent
  rw [if_neg ht]
  have htrim := trim_le r.eventSizes hsize
  have hbytes : (r.eventSizes ++ [codec.eventSize t d]).sum =
      r.eventBytes + codec.eventSize t d := by simp [h.bytes]
  have hlength : (r.eventSizes ++ [codec.eventSize t d]).length =
      (r.events ++ [(⟨r.nextSeq, t, d⟩ : RunEvent Data)]).length := by simp [h.length]
  rw [hbytes, hlength, h.length] at htrim
  exact ⟨_, List.drop_append_of_le_length htrim⟩

structure Unended (r : RunRecord Data) : Prop extends Measured r where
  events : ∀ e ∈ r.events, e.eventType ≠ .runEnd

theorem unended_new (runId : String) (sessionId : Option String) :
    ({ runId, sessionId } : RunRecord Data).Unended where
  length := rfl
  bytes := rfl
  events _ h := by cases h

theorem Unended.recordEvent (h : r.Unended) (codec : Codec Data)
    (ht : t ≠ .runEnd) (d : Data) : (r.recordEvent codec t d).Unended where
  toMeasured := h.toMeasured.recordEvent codec t d
  events e he := by
    rcases recordEvent_events he with he | he
    · exact h.events e he
    · rw [he]
      exact ht

theorem Unended.recordEnd (h : r.Unended)
    (hsize : codec.eventSize .runEnd d ≤ maxBufferedBytes) :
    ((r.recordEvent codec .runEnd d).events.filter fun e => e.eventType = .runEnd).length = 1 := by
  obtain ⟨n, hn⟩ := recordEvent_last h.toMeasured (by decide) hsize
  have hnone : (r.events.drop n).filter (fun e => e.eventType = .runEnd) = [] := by
    apply List.filter_eq_nil_iff.mpr
    intro e he
    simpa using h.events e (List.mem_of_mem_drop he)
  rw [hn, List.filter_append, hnone]
  rfl

end RunRecord

def RunStatus.name : RunStatus → String
  | running => "running"
  | completed => "completed"
  | error => "error"
  | aborted => "aborted"

/-- The payload of a run's end, or another one by its wire size and its uuid. -/
inductive Payload
  | status (status : RunStatus)
  | object (size : Nat) (uuid : Option String)

/-- The wire size of `{"event": eventType, "data": {"status": status}}` -/
def endSize (eventType : EventType) (status : RunStatus) : Nat :=
  10 + eventType.name.utf8ByteSize + 9 + 11 + status.name.utf8ByteSize + 3

def payloadSize (eventType : EventType) : Payload → Nat
  | .status status => endSize eventType status
  | .object size _ => size

def payloadCodec : Codec Payload where
  eventSize := payloadSize
  approximateSize _ := payloadSize
  uuid
    | .status _ => none
    | .object _ uuid => uuid
  emptyObject := .object 2 none

end PrivaCloud.AgentRunner
