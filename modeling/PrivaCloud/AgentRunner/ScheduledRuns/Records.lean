import PrivaCloud.AgentRunner.RunRegistry.Effects
import PrivaCloud.AgentRunner.ScheduledRuns.Executor

/-!
# Records under the executor

Signalling the end of a run leaves one end in the buffer of its record, and no other record changes.
-/

namespace PrivaCloud.AgentRunner

open Framework

theorem countP_range_apart (p : Nat → Bool) {t n : Nat} (ht : t < n) : (List.range n).countP p =
      (if p t then 1 else 0) + (List.range n).countP fun i => decide (i ≠ t) && p i := by
  have hp : (List.range n).Perm (t :: (List.range n).erase t) :=
    List.perm_cons_erase (List.mem_range.mpr ht)
  have hrest : ((List.range n).erase t).countP p =
      ((List.range n).erase t).countP fun i => decide (i ≠ t) && p i := by
    apply List.countP_congr
    intro i hi
    have hne : i ≠ t := (List.nodup_range.mem_erase_iff.mp hi).1
    simp [hne]
  rw [hp.countP_eq, hp.countP_eq, List.countP_cons, List.countP_cons, hrest]
  simp
  omega

theorem countP_range_congr {p q : Nat → Bool} {t n : Nat} (h : ∀ i < n, i ≠ t → p i = q i) :
    (List.range n).countP (fun i => decide (i ≠ t) && p i) =
      (List.range n).countP fun i => decide (i ≠ t) && q i := by
  apply List.countP_congr
  intro i hi
  by_cases hit : i = t
  · simp [hit]
  · simp [hit, h i (List.mem_range.mp hi) hit]

namespace RunRegistry

variable {reg : RunRegistry Payload} {r record : RecordId}

def ends (reg : RunRegistry Payload) (r : RecordId) : Nat :=
  ((reg.records r).events.filter fun e => e.eventType = .runEnd).length

private theorem signalRunEnd_eq (hu : (reg.records record).Unended) :
    ScheduledRuns.signalRunEnd reg record = reg.recordEvent payloadCodec record .runEnd
      (.status (reg.records record).status) := by
  unfold ScheduledRuns.signalRunEnd
  rw [if_neg]
  intro ⟨e, he, hend⟩
  exact hu.events e he hend

theorem ends_signalRunEnd (hu : (reg.records record).Unended) :
    (ScheduledRuns.signalRunEnd reg record).ends record = 1 := by
  have hsize : payloadCodec.eventSize .runEnd (.status (reg.records record).status) ≤
      maxBufferedBytes := by
    cases (reg.records record).status <;> decide
  rw [signalRunEnd_eq hu, ends, recordEvent]
  dsimp only
  rw [Function.update_self]
  exact hu.recordEnd hsize

theorem signalRunEnd_of_ne (hr : r ≠ record) :
    (ScheduledRuns.signalRunEnd reg record).records r = reg.records r := by
  unfold ScheduledRuns.signalRunEnd
  split
  · rfl
  · simp [recordEvent, hr]

theorem signalRunEnd_status (reg : RunRegistry Payload) (record r : RecordId) :
    ((ScheduledRuns.signalRunEnd reg record).records r).status = (reg.records r).status := by
  unfold ScheduledRuns.signalRunEnd
  split
  · rfl
  · by_cases hr : r = record
    · simp [hr, recordEvent]
    · simp [hr, recordEvent]

theorem signalRunEnd_size (reg : RunRegistry Payload) (record : RecordId) :
    (ScheduledRuns.signalRunEnd reg record).size = reg.size := by
  unfold ScheduledRuns.signalRunEnd
  split <;> rfl

theorem Slots.signalRunEnd (h : Slots reg) (record : RecordId) :
    Slots (ScheduledRuns.signalRunEnd reg record) := by
  refine h.of_live (signalRunEnd_size reg record) ?_ fun r => ?_
  · unfold ScheduledRuns.signalRunEnd
    split <;> rfl
  · simp only [liveRef, RunRecord.live, signalRunEnd_status]

end RunRegistry

end PrivaCloud.AgentRunner
