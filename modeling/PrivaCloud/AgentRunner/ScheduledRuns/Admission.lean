import PrivaCloud.AgentRunner.ScheduledRuns.Records

/-!
# Admission of scheduled runs

What the endpoint goes by: live runs are known and own the entry of their job, and every entry is
that of a live run. Nothing here depends on how a task ends.
-/

namespace PrivaCloud.AgentRunner

open Framework

namespace ScheduledRuns

def OneLivePerJob (s : ScheduledRuns) : Prop :=
  ∀ t < s.size, ∀ t' < s.size, (s.tasks t).request.jobId = (s.tasks t').request.jobId →
    s.live t → s.live t' → t = t'

variable {s s' : ScheduledRuns} {t : TaskId}

/-- Live runs are known and own the entry of their job, and every entry is that of a live run. -/
structure Admission (s : ScheduledRuns) : Prop where
  recordLt : ∀ t < s.size, (s.tasks t).record < s.registry.size
  recordInj : ∀ t < s.size, ∀ t' < s.size, (s.tasks t).record = (s.tasks t').record → t = t'
  acceptedRef : ∀ runId t, s.accepted.lookup runId = some t → t < s.size ∧ (s.tasks t).request.runId = runId
  liveKnown : ∀ t < s.size, s.live t → (s.tasks t).endedAt = none ∧
    s.accepted.lookup (s.tasks t).request.runId = some t ∧
    s.liveByJob.lookup (s.tasks t).request.jobId = some (s.tasks t).request.runId
  jobLive : ∀ jobId runId, s.liveByJob.lookup jobId = some runId →
    ∃ t, s.accepted.lookup runId = some t ∧ s.live t ∧ (s.tasks t).request.jobId = jobId
  slots : s.registry.Slots

theorem admission_init : init.Admission where
  recordLt _ h := absurd h (Nat.not_lt_zero _)
  recordInj _ h := absurd h (Nat.not_lt_zero _)
  acceptedRef _ _ h := by cases h
  liveKnown _ h := absurd h (Nat.not_lt_zero _)
  jobLive _ _ h := by cases h
  slots := rfl

theorem Admission.oneLivePerJob (h : s.Admission) : s.OneLivePerJob := by
  intro t ht t' ht' hjob hlive hlive'
  obtain ⟨-, hknown, hentry⟩ := h.liveKnown t ht hlive
  obtain ⟨-, hknown', hentry'⟩ := h.liveKnown t' ht' hlive'
  rw [hjob, hentry', Option.some.injEq] at hentry
  rw [hentry, hknown, Option.some.injEq] at hknown'
  exact hknown'

theorem Admission.of_status (h : s.Admission) (hsize : s'.size = s.size)
    (htasks : ∀ t, (s'.tasks t).request = (s.tasks t).request ∧
      (s'.tasks t).record = (s.tasks t).record ∧ (s'.tasks t).endedAt = (s.tasks t).endedAt)
    (haccepted : s'.accepted = s.accepted) (hjobs : s'.liveByJob = s.liveByJob)
    (hreg : s.registry.size ≤ s'.registry.size)
    (hstatus : ∀ t < s.size, (s'.registry.records (s.tasks t).record).status =
      (s.registry.records (s.tasks t).record).status)
    (hslots : s'.registry.Slots) : s'.Admission := by
  have hlive : ∀ t < s.size, s'.live t = s.live t := by
    intro t ht
    simp only [live, (htasks t).2.1, RunRegistry.liveRef, RunRecord.live, hstatus t ht]
  constructor
  · intro t ht
    rw [hsize] at ht
    rw [(htasks t).2.1]
    exact (h.recordLt t ht).trans_le hreg
  · intro t ht t' ht' heq
    rw [hsize] at ht ht'
    rw [(htasks t).2.1, (htasks t').2.1] at heq
    exact h.recordInj t ht t' ht' heq
  · intro runId t hk
    rw [haccepted] at hk
    rw [hsize, (htasks t).1]
    exact h.acceptedRef runId t hk
  · intro t ht hl
    rw [hsize] at ht
    rw [hlive t ht] at hl
    rw [(htasks t).1, (htasks t).2.2, haccepted, hjobs]
    exact h.liveKnown t ht hl
  · intro jobId runId hk
    rw [hjobs] at hk
    obtain ⟨t, hk', hl, hjob⟩ := h.jobLive jobId runId hk
    refine ⟨t, by rwa [haccepted], ?_, by rwa [(htasks t).1]⟩
    rw [hlive t (h.acceptedRef runId t hk').1, hl]
  · exact hslots

theorem Admission.setTask (h : s.Admission) {task : RunTask}
    (hrequest : task.request = (s.tasks t).request) (hrecord : task.record = (s.tasks t).record)
    (hended : task.endedAt = (s.tasks t).endedAt) : (s.setTask t task).Admission := by
  have htasks : ∀ t', ((s.setTask t task).tasks t').request = (s.tasks t').request ∧
      ((s.setTask t task).tasks t').record = (s.tasks t').record ∧
      ((s.setTask t task).tasks t').endedAt = (s.tasks t').endedAt := by
    intro t'
    by_cases htt : t' = t
    · simp [ScheduledRuns.setTask, htt, hrequest, hrecord, hended]
    · simp [ScheduledRuns.setTask, htt]
  exact h.of_status rfl htasks rfl rfl (Nat.le_refl _) (fun _ _ => rfl) h.slots

theorem sweepAccepted_lookup (s : ScheduledRuns) (now : ℚ) (runId : String) (t : TaskId) :
    (s.sweepAccepted now).accepted.lookup runId = some t ↔
      s.accepted.lookup runId = some t ∧ s.expired now t = false := by
  rw [sweepAccepted, Dict.lookup_popValues]
  constructor
  · intro ⟨hk, hmem⟩
    refine ⟨hk, ?_⟩
    by_contra hexp
    exact hmem (List.mem_filter.mpr ⟨Dict.mem_values.mpr ⟨runId, hk⟩, by simpa using hexp⟩)
  · intro ⟨hk, hexp⟩
    refine ⟨hk, fun hmem => ?_⟩
    have hexp' := (List.mem_filter.mp hmem).2
    rw [hexp] at hexp'
    cases hexp'

theorem expired_ended {now : ℚ} (h : s.expired now t = true) : (s.tasks t).endedAt ≠ none := by
  intro hnone
  simp [expired, hnone] at h

theorem Admission.sweepAccepted (h : s.Admission) (now : ℚ) : (s.sweepAccepted now).Admission := by
  have hkeep : ∀ t < s.size, s.live t → s.expired now t = false := by
    intro t ht hl
    by_contra hexp
    exact expired_ended (by simpa using hexp) (h.liveKnown t ht hl).1
  constructor
  · exact h.recordLt
  · exact h.recordInj
  · intro runId t hk
    exact h.acceptedRef runId t ((sweepAccepted_lookup s now runId t).mp hk).1
  · intro t ht hl
    obtain ⟨hended, hknown, hentry⟩ := h.liveKnown t ht hl
    exact ⟨hended, (sweepAccepted_lookup s now _ t).mpr ⟨hknown, hkeep t ht hl⟩, hentry⟩
  · intro jobId runId hk
    obtain ⟨t, hknown, hl, hjob⟩ := h.jobLive jobId runId hk
    have ht := (h.acceptedRef runId t hknown).1
    exact ⟨t, (sweepAccepted_lookup s now _ t).mpr ⟨hknown, hkeep t ht hl⟩, hl, hjob⟩
  · exact h.slots

private theorem Admission.liveRunForJob_eq (h : s.Admission) (jobId : String) :
    s.liveRunForJob jobId = (s, s.liveByJob.lookup jobId) := by
  unfold liveRunForJob
  cases hk : s.liveByJob.lookup jobId with
  | none => rfl
  | some runId =>
    obtain ⟨t, hknown, hl, -⟩ := h.jobLive jobId runId hk
    simp [hknown, hl]

theorem Admission.gates_eq (h : s.Admission) (req : RunRequest) (now : ℚ) :
    s.gates req now = (s.sweepAccepted now,
      !(s.sweepAccepted now).isAccepted req.runId && (s.liveByJob.lookup req.jobId).isNone) := by
  unfold gates
  dsimp only
  rw [(h.sweepAccepted now).liveRunForJob_eq req.jobId]
  cases hacc : (s.sweepAccepted now).isAccepted req.runId with
  | true => rfl
  | false =>
    have hjobs : (s.sweepAccepted now).liveByJob = s.liveByJob := rfl
    rw [hjobs]
    cases s.liveByJob.lookup req.jobId <;> rfl

/-- A new record of the registry and a task that holds it. -/
def started (s : ScheduledRuns) (req : RunRequest) (reg : RunRegistry Payload) : ScheduledRuns :=
  { s with
    registry := reg
    tasks := Function.update s.tasks s.size { request := req, record := s.registry.size }
    size := s.size + 1
    accepted := s.accepted.insert req.runId s.size
    liveByJob := s.liveByJob.insert req.jobId req.runId }

/-- `start` raises, or the run is the newest task. -/
theorem start_cases (hslots : s.registry.Slots) (req : RunRequest) (now : ℚ) (uuid : String) :
    ∃ reg : RunRegistry Payload, reg.Slots ∧
      (s.start req now uuid = { s with registry := reg } ∧ reg.records = s.registry.records ∧
        reg.size = s.registry.size ∨
      ∃ key, s.start req now uuid = s.started req reg ∧
        reg.records = Function.update s.registry.records s.registry.size
          { runId := key, sessionId := none } ∧
        reg.size = s.registry.size + 1) := by
  have hkept := hslots.create now none (some req.runId) uuid
  unfold ScheduledRuns.start
  rcases RunRegistry.create_cases s.registry now none (some req.runId) uuid with
    ⟨e, reg, heq, hrecords, hsize, -⟩ | ⟨reg, key, heq, hrecords, hsize, -⟩
  · rw [heq] at hkept ⊢
    exact ⟨reg, hkept, .inl ⟨rfl, hrecords, hsize⟩⟩
  · rw [heq] at hkept ⊢
    exact ⟨reg, hkept, .inr ⟨key, rfl, hrecords, hsize⟩⟩

section Started

variable {req : RunRequest} {reg : RunRegistry Payload} {key : String}
  (h : s.Admission) (hrecords : reg.records = Function.update s.registry.records s.registry.size
    { runId := key, sessionId := none })

theorem started_tasks_of_lt (ht : t < s.size) : (s.started req reg).tasks t = s.tasks t := by
  simp [started, ht.ne]

include h hrecords

theorem Admission.started_record (ht : t < s.size) :
    reg.records (s.tasks t).record = s.registry.records (s.tasks t).record := by
  rw [hrecords, Function.update_of_ne (h.recordLt t ht).ne]

private theorem Admission.started_live (ht : t < s.size) : (s.started req reg).live t = s.live t := by
  rw [live, live, started_tasks_of_lt ht]
  change reg.liveRef _ = _
  rw [RunRegistry.liveRef, h.started_record hrecords ht, RunRegistry.liveRef]

theorem Admission.started (hsize : reg.size = s.registry.size + 1) (hslots : reg.Slots)
    (hunknown : s.accepted.lookup req.runId = none) (hfree : s.liveByJob.lookup req.jobId = none) :
    (s.started req reg).Admission := by
  have hnew : (s.started req reg).tasks s.size = { request := req, record := s.registry.size } := by
    simp [ScheduledRuns.started]
  have hcases : ∀ t < s.size + 1, t < s.size ∨ t = s.size := fun t ht => by omega
  have hsize' : (s.started req reg).size = s.size + 1 := rfl
  constructor
  · intro t ht
    change _ < reg.size
    rw [hsize]
    rcases hcases t ht with ht | rfl
    · rw [started_tasks_of_lt ht]
      exact (h.recordLt t ht).trans (Nat.lt_succ_self _)
    · rw [hnew]
      exact Nat.lt_succ_self _
  · intro t ht t' ht' heq
    rcases hcases t ht with ht | rfl <;> rcases hcases t' ht' with ht' | rfl
    · rw [started_tasks_of_lt ht, started_tasks_of_lt ht'] at heq
      exact h.recordInj t ht t' ht' heq
    · rw [started_tasks_of_lt ht, hnew] at heq
      exact absurd heq (h.recordLt t ht).ne
    · rw [started_tasks_of_lt ht', hnew] at heq
      exact absurd heq.symm (h.recordLt t' ht').ne
    · rfl
  · intro runId t hk
    by_cases hid : runId = req.runId
    · rw [hid] at hk ⊢
      cases (AList.lookup_insert s.accepted).symm.trans hk
      rw [hnew]
      exact ⟨Nat.lt_succ_self _, rfl⟩
    · obtain ⟨ht, hrun⟩ := h.acceptedRef runId t ((AList.lookup_insert_ne hid).symm.trans hk)
      rw [started_tasks_of_lt ht]
      exact ⟨ht.trans (Nat.lt_succ_self _), hrun⟩
  · intro t ht hl
    rcases hcases t ht with ht | rfl
    · rw [h.started_live hrecords ht] at hl
      obtain ⟨hended, hknown, hentry⟩ := h.liveKnown t ht hl
      rw [started_tasks_of_lt ht]
      refine ⟨hended, ?_, ?_⟩
      · have hne : (s.tasks t).request.runId ≠ req.runId := fun heq => by
          rw [heq, hunknown] at hknown
          cases hknown
        exact (AList.lookup_insert_ne hne).trans hknown
      · have hne : (s.tasks t).request.jobId ≠ req.jobId := fun heq => by
          rw [heq, hfree] at hentry
          cases hentry
        exact (AList.lookup_insert_ne hne).trans hentry
    · rw [hnew]
      exact ⟨rfl, AList.lookup_insert _, AList.lookup_insert _⟩
  · intro jobId runId hk
    by_cases hjob : jobId = req.jobId
    · rw [hjob] at hk ⊢
      cases (AList.lookup_insert s.liveByJob).symm.trans hk
      refine ⟨s.size, AList.lookup_insert _, ?_, ?_⟩
      · rw [live, hnew]
        change reg.liveRef _ = _
        rw [RunRegistry.liveRef, hrecords, Function.update_self]
        rfl
      · rw [hnew]
    · obtain ⟨t, hknown, hl, hj⟩ := h.jobLive jobId runId
        ((AList.lookup_insert_ne hjob).symm.trans hk)
      have ht := (h.acceptedRef runId t hknown).1
      have hne : runId ≠ req.runId := fun heq => by
        rw [heq, hunknown] at hknown
        cases hknown
      refine ⟨t, (AList.lookup_insert_ne hne).trans hknown, ?_, ?_⟩
      · rw [h.started_live hrecords ht, hl]
      · rw [started_tasks_of_lt ht, hj]
  · exact hslots

end Started

theorem toRecord_ne_running (status : OutcomeStatus) : status.toRecord ≠ .running := by
  cases status <;> decide

section Close

variable (signalFollowers : Bool) (now : ℚ)

private theorem closeRecord_tasks_of_ne {t' : TaskId} (htt : t' ≠ t) :
    (s.closeRecord t signalFollowers now).tasks t' = s.tasks t' := by
  simp [closeRecord, htt]

theorem closeRecord_task :
    (s.closeRecord t signalFollowers now).tasks t = { s.tasks t with endedAt := some now } := by
  simp [closeRecord]

theorem closeRecord_records_of_ne {r : RecordId} (hr : r ≠ (s.tasks t).record) :
    (s.closeRecord t signalFollowers now).registry.records r = s.registry.records r := by
  unfold closeRecord
  dsimp only
  split
  · rw [RunRegistry.signalRunEnd_of_ne hr, RunRegistry.finish_records_of_ne hr]
  · rw [RunRegistry.finish_records_of_ne hr]

theorem closeRecord_status (hl : s.live t) :
    ((s.closeRecord t signalFollowers now).registry.records (s.tasks t).record).status =
      (s.tasks t).outcome.status.toRecord := by
  have hfinish := RunRegistry.finish_record hl (s.tasks t).outcome.status.toRecord now now
  unfold closeRecord
  dsimp only
  split
  · rw [RunRegistry.signalRunEnd_status, hfinish.1]
  · exact hfinish.1

private theorem closeRecord_size : (s.closeRecord t signalFollowers now).registry.size = s.registry.size := by
  unfold closeRecord
  dsimp only
  split
  · rw [RunRegistry.signalRunEnd_size, RunRegistry.finish_size]
  · rw [RunRegistry.finish_size]

private theorem closeRecord_slots (hr : (s.tasks t).record < s.registry.size) (h : s.registry.Slots) :
    (s.closeRecord t signalFollowers now).registry.Slots := by
  have hfinish := h.finish hr (toRecord_ne_running (s.tasks t).outcome.status) now now
  unfold closeRecord
  dsimp only
  split
  · exact hfinish.signalRunEnd _
  · exact hfinish

theorem closeRecord_ends (hl : s.live t) (hu : (s.registry.records (s.tasks t).record).Unended) :
    (s.closeRecord t true now).registry.ends (s.tasks t).record = 1 := by
  unfold closeRecord
  dsimp only
  rw [if_pos rfl]
  exact RunRegistry.ends_signalRunEnd ((RunRegistry.finish_record hl _ now now).2 hu)

theorem closeRecord_unended (hl : s.live t) (hu : (s.registry.records (s.tasks t).record).Unended) :
    ((s.closeRecord t false now).registry.records (s.tasks t).record).Unended := by
  unfold closeRecord
  dsimp only
  rw [if_neg Bool.false_ne_true]
  exact (RunRegistry.finish_record hl _ now now).2 hu

private theorem Admission.closeRecord_liveByJob (h : s.Admission) (ht : t < s.size) (hl : s.live t) :
    (s.closeRecord t signalFollowers now).liveByJob = s.liveByJob.erase (s.tasks t).request.jobId := by
  unfold ScheduledRuns.closeRecord
  dsimp only
  rw [if_pos (h.liveKnown t ht hl).2.2]

private theorem closeRecord_not_live (hl : s.live t) : (s.closeRecord t signalFollowers now).live t = false := by
  rw [live, closeRecord_task, RunRegistry.liveRef, RunRecord.live, closeRecord_status signalFollowers now hl]
  simpa using toRecord_ne_running _

private theorem Admission.closeRecord_live (h : s.Admission) (ht : t < s.size) {t' : TaskId}
    (ht' : t' < s.size) (htt : t' ≠ t) :
    (s.closeRecord t signalFollowers now).live t' = s.live t' := by
  have hne : (s.tasks t').record ≠ (s.tasks t).record := fun heq =>
    htt (h.recordInj t' ht' t ht heq)
  rw [live, live, closeRecord_tasks_of_ne signalFollowers now htt, RunRegistry.liveRef,
    closeRecord_records_of_ne signalFollowers now hne, RunRegistry.liveRef]

theorem Admission.closeRecord (h : s.Admission) (ht : t < s.size) (hl : s.live t) :
    (s.closeRecord t signalFollowers now).Admission := by
  have hsame : ∀ t', ((s.closeRecord t signalFollowers now).tasks t').request = (s.tasks t').request ∧
      ((s.closeRecord t signalFollowers now).tasks t').record = (s.tasks t').record := by
    intro t'
    by_cases htt : t' = t
    · rw [htt, closeRecord_task]
      exact ⟨rfl, rfl⟩
    · rw [closeRecord_tasks_of_ne signalFollowers now htt]
      exact ⟨rfl, rfl⟩
  constructor
  · intro t' ht'
    rw [(hsame t').2, closeRecord_size]
    exact h.recordLt t' ht'
  · intro t' ht' t'' ht'' heq
    rw [(hsame t').2, (hsame t'').2] at heq
    exact h.recordInj t' ht' t'' ht'' heq
  · intro runId t' hk
    rw [(hsame t').1]
    exact h.acceptedRef runId t' hk
  · intro t' ht' hl'
    by_cases htt : t' = t
    · rw [htt, closeRecord_not_live signalFollowers now hl] at hl'
      cases hl'
    · rw [h.closeRecord_live signalFollowers now ht ht' htt] at hl'
      obtain ⟨hended, hknown, hentry⟩ := h.liveKnown t' ht' hl'
      have hne : (s.tasks t').request.jobId ≠ (s.tasks t).request.jobId := fun heq =>
        htt (h.oneLivePerJob t' ht' t ht heq hl' hl)
      rw [closeRecord_tasks_of_ne signalFollowers now htt,
        h.closeRecord_liveByJob signalFollowers now ht hl, AList.lookup_erase_ne hne]
      exact ⟨hended, hknown, hentry⟩
  · intro jobId runId hk
    rw [h.closeRecord_liveByJob signalFollowers now ht hl] at hk
    have hne : jobId ≠ (s.tasks t).request.jobId := fun heq => by
      rw [heq, AList.lookup_erase] at hk
      cases hk
    rw [AList.lookup_erase_ne hne] at hk
    obtain ⟨t', hknown, hl', hjob⟩ := h.jobLive jobId runId hk
    have htt : t' ≠ t := fun heq => hne (by rw [← hjob, heq])
    have ht' := (h.acceptedRef runId t' hknown).1
    refine ⟨t', hknown, ?_, ?_⟩
    · rw [h.closeRecord_live signalFollowers now ht ht' htt, hl']
    · rw [(hsame t').1, hjob]
  · exact closeRecord_slots signalFollowers now (h.recordLt t ht) h.slots

end Close

end ScheduledRuns

end PrivaCloud.AgentRunner
