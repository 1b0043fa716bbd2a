import PrivaCloud.AgentRunner.ScheduledRuns.Admission

/-!
# Scheduled runs settle

A run id is started only while the pod does not know it, a job has one live run, and a task that ends leaves
its record closed and its outcome with the writer, unless it is cancelled before its first step, its body is
left by an exception that no handler catches or a cancellation comes before a thread has taken the finish.
-/

namespace PrivaCloud.AgentRunner

open Framework

namespace ScheduledRuns

def activity (s : ScheduledRuns) : Nat := s.registry.activity + s.callbackSlots

/-- The slots held by everything but the task. -/
def activityWithout (s : ScheduledRuns) (t : TaskId) : Nat :=
  (List.range s.registry.size).countP (fun r => decide (r ≠ (s.tasks t).record) && s.registry.liveRef r) +
    (List.range s.size).countP fun t' => decide (t' ≠ t) && decide ((s.tasks t').phase = .callback)

/-- What a task that has ended leaves behind. The job may have the entry of a run that was admitted
while the callback was under way. -/
structure Settled (s : ScheduledRuns) (t : TaskId) : Prop where
  terminal : (s.registry.records (s.tasks t).record).status = (s.tasks t).outcome.status.toRecord
  oneEnd : s.registry.ends (s.tasks t).record = 1
  jobFree : ∀ runId, s.liveByJob.lookup (s.tasks t).request.jobId = some runId →
    ∃ t' ≠ t, s.accepted.lookup runId = some t' ∧ s.live t'
  written : s.written.filter (fun w => w.1 = t) = [(t, finishRecord (s.tasks t).request (s.tasks t).outcome)]
  activity : s.activity = s.activityWithout t

/-- A run starts only while the pod does not know its id, and an id stays known while its run goes
on. -/
structure StartsOnce (s : ScheduledRuns) (e : ExecutorEvent) (s' : ScheduledRuns) : Prop where
  unknown : ∀ t, s.size ≤ t → t < s'.size → ∃ i now uuid, e = .capReturns i false now uuid ∧
    (s.sweepAccepted now).isAccepted (s'.tasks t).request.runId = false
  known : ∀ runId t, s.accepted.lookup runId = some t →
    s'.accepted.lookup runId = some t ∨ (s.tasks t).endedAt ≠ none

def EndsSettled (s s' : ScheduledRuns) : Prop :=
  ∀ t < s.size, (s.tasks t).phase ≠ .ended → (s'.tasks t).phase = .ended → s'.Settled t

/-- The section starts no known run, leaves one live run per job and settles the task it ends. -/
def Orderly (s : ScheduledRuns) (e : ExecutorEvent) : Prop :=
  ∀ s', s.step e = some s' → StartsOnce s e s' ∧ s'.OneLivePerJob ∧ EndsSettled s s'

/-- The task is not cancelled before its first step, not left by an exception that no handler
catches and not cancelled before a thread has taken its finish. -/
def Handled (s : ScheduledRuns) : ExecutorEvent → Prop
  | .cancelledUnstarted _ => False
  | .bodyEnds _ _ exit _ => exit ≠ .escapes
  | .finishCancelled t _ => (s.tasks t).phase = .finishing true
  | .posted .. | .capReturns .. | .postDropped _ | .registryCalled _ | .begins _ | .writerBegins _
  | .finishReturns .. | .finishRaises .. | .callbackEnds .. => True

instance (s : ScheduledRuns) (e : ExecutorEvent) : Decidable (s.Handled e) := by
  cases e <;> dsimp only [Handled] <;> infer_instance

end ScheduledRuns

namespace ExecutionPhase

def isOpen : ExecutionPhase → Bool
  | created | body | finishing _ => true
  | callback | ended => false

def handedOver : ExecutionPhase → Bool
  | finishing begun => begun
  | callback => true
  | created | body | ended => false

end ExecutionPhase

namespace ScheduledRuns

variable {s s' : ScheduledRuns} {t : TaskId}

/-- The calls of `_write_finish` for a task. -/
def writtenOf (s : ScheduledRuns) (t : TaskId) : List (TaskId × DataSpine.JobRunRecord) :=
  s.written.filter fun w => w.1 = t

def handed (s : ScheduledRuns) (t : TaskId) : TaskId × DataSpine.JobRunRecord :=
  (t, finishRecord (s.tasks t).request (s.tasks t).outcome)

/-- How far a task that goes on has come. -/
structure Progress (s : ScheduledRuns) (t : TaskId) : Prop where
  running : (s.tasks t).phase.isOpen → s.live t
  closed : (s.tasks t).phase = .callback →
    (s.registry.records (s.tasks t).record).status = (s.tasks t).outcome.status.toRecord
  unended : (s.registry.records (s.tasks t).record).Unended
  written : s.writtenOf t = if (s.tasks t).phase.handedOver then [s.handed t] else []

def inCallback (s : ScheduledRuns) (t : TaskId) : Bool := decide ((s.tasks t).phase = .callback)

structure Inv (s : ScheduledRuns) : Prop extends Admission s where
  progress : ∀ t < s.size, (s.tasks t).phase ≠ .ended → s.Progress t
  callbacks : s.callbackSlots = (List.range s.size).countP s.inCallback
  writtenLt : ∀ w ∈ s.written, w.1 < s.size

private theorem inv_init : init.Inv where
  toAdmission := admission_init
  progress _ h := absurd h (Nat.not_lt_zero _)
  callbacks := rfl
  writtenLt _ h := by cases h

private theorem Progress.frame (h : s.Progress t) (htask : s'.tasks t = s.tasks t)
    (hgoes : RunRegistry.GoesOn s.registry s'.registry (s.tasks t).record)
    (hwritten : s'.writtenOf t = s.writtenOf t) : s'.Progress t where
  running hopen := by
    rw [htask] at hopen
    rw [live, htask, hgoes.live]
    exact h.running hopen
  closed hphase := by
    rw [htask] at hphase ⊢
    rw [hgoes.status]
    exact h.closed hphase
  unended := by
    rw [htask]
    exact hgoes.unended h.unended
  written := by
    rw [hwritten, h.written, handed, handed, htask]

private theorem Inv.of_task (h : s.Inv) (ht : t < s.size) (hadm : s'.Admission) (hsize : s'.size = s.size)
    (hother : ∀ t' < s.size, t' ≠ t → s'.tasks t' = s.tasks t' ∧
      RunRegistry.GoesOn s.registry s'.registry (s.tasks t').record ∧
      s'.writtenOf t' = s.writtenOf t')
    (hown : (s'.tasks t).phase ≠ .ended → s'.Progress t)
    (hslots : s'.callbackSlots + (if s.inCallback t then 1 else 0) =
      s.callbackSlots + (if s'.inCallback t then 1 else 0))
    (hwritten : ∀ w ∈ s'.written, w.1 < s.size) : s'.Inv := by
  refine ⟨hadm, ?_, ?_, ?_⟩
  · intro t' ht' hphase
    rw [hsize] at ht'
    by_cases htt : t' = t
    · rw [htt] at hphase ⊢
      exact hown hphase
    · obtain ⟨htask, hgoes, hw⟩ := hother t' ht' htt
      rw [htask] at hphase
      exact (h.progress t' ht' hphase).frame htask hgoes hw
  · have hcount := countP_range_apart s.inCallback ht
    have hcount' := countP_range_apart s'.inCallback ht
    have hsame : ∀ t' < s.size, t' ≠ t → s'.inCallback t' = s.inCallback t' := by
      intro t' ht' htt
      rw [inCallback, inCallback, (hother t' ht' htt).1]
    rw [countP_range_congr hsame] at hcount'
    have hbefore := h.callbacks
    rw [hsize]
    omega
  · rw [hsize]
    exact hwritten

private theorem Inv.settled (h : s.Inv) (ht : t < s.size) (hphase : (s.tasks t).phase = .ended)
    (hstatus : (s.registry.records (s.tasks t).record).status = (s.tasks t).outcome.status.toRecord)
    (hends : s.registry.ends (s.tasks t).record = 1) (hwritten : s.writtenOf t = [s.handed t]) :
    s.Settled t := by
  have hlive : s.registry.liveRef (s.tasks t).record = false := by
    rw [RunRegistry.liveRef, RunRecord.live, hstatus]
    simpa using toRecord_ne_running _
  refine ⟨hstatus, hends, ?_, hwritten, ?_⟩
  · intro runId hk
    obtain ⟨t', hknown, hl, -⟩ := h.jobLive _ runId hk
    refine ⟨t', ?_, hknown, hl⟩
    intro htt
    rw [live, htt, hlive] at hl
    cases hl
  · have hrecords := countP_range_apart s.registry.liveRef (h.recordLt t ht)
    have hcalls := countP_range_apart s.inCallback ht
    have hnot : s.inCallback t = false := by simp [inCallback, hphase]
    rw [hlive] at hrecords
    rw [hnot] at hcalls
    have hslots : s.registry.activity = s.registry.liveCount := h.slots
    rw [activity, hslots, h.callbacks, RunRegistry.liveCount, hrecords, hcalls]
    simp [activityWithout, inCallback]

private theorem startsOnce_of_eq {e : ExecutorEvent} (hsize : s'.size = s.size)
    (haccepted : s'.accepted = s.accepted) : StartsOnce s e s' where
  unknown t hle hlt := absurd (hsize ▸ hlt) (Nat.not_lt.mpr hle)
  known runId t hk := .inl (by rw [haccepted, hk])

private theorem endsSettled_of_phase (h : ∀ t < s.size, (s.tasks t).phase ≠ .ended →
    (s'.tasks t).phase ≠ .ended) : EndsSettled s s' :=
  fun t ht hphase hended => absurd hended (h t ht hphase)

private theorem EndsSettled.of_phase {mid : ScheduledRuns} (h : EndsSettled mid s')
    (hmid : ∀ t < s.size, (s.tasks t).phase ≠ .ended →
      t < mid.size ∧ (mid.tasks t).phase ≠ .ended) : EndsSettled s s' :=
  fun t ht hphase hended => h t (hmid t ht hphase).1 (hmid t ht hphase).2 hended

private theorem endsSettled_of_task (hother : ∀ t' < s.size, t' ≠ t → s'.tasks t' = s.tasks t')
    (hown : (s'.tasks t).phase = .ended → s'.Settled t) : EndsSettled s s' := by
  intro t' ht' hphase hended
  by_cases htt : t' = t
  · rw [htt] at hended ⊢
    exact hown hended
  · rw [hother t' ht' htt] at hended
    exact absurd hended hphase

private theorem Inv.setRegistry (h : s.Inv) {reg : RunRegistry Payload} (hreg : s.registry.size ≤ reg.size)
    (hgoes : ∀ t < s.size, RunRegistry.GoesOn s.registry reg (s.tasks t).record)
    (hslots : reg.Slots) : { s with registry := reg }.Inv where
  toAdmission :=
    h.toAdmission.of_status rfl (fun _ => ⟨rfl, rfl, rfl⟩) rfl rfl hreg
      (fun t ht => (hgoes t ht).status) hslots
  progress t ht hphase := (h.progress t ht hphase).frame rfl (hgoes t ht) rfl
  callbacks := h.callbacks
  writtenLt := h.writtenLt

private theorem foreign_spares {op : RegistryOp Payload} (hforeign : s.foreign op) (ht : t < s.size) :
    RunRegistry.Spares (s.tasks t).record op := by
  have hall : ∀ r, ((List.range s.size).all fun t => decide ((s.tasks t).record ≠ r)) = true →
      r ≠ (s.tasks t).record := by
    intro r hr heq
    have hne := List.all_eq_true.mp hr t (List.mem_range.mpr ht)
    simp [heq] at hne
  cases op with
  | finish r status endedAt now => exact hall r hforeign
  | recordEvent r eventType d =>
    rcases Bool.or_eq_true_iff.mp hforeign with htype | hr
    · exact .inl (by simpa using htype)
    · exact .inr (hall r hr)
  | finishCancelled endData endedAt now => cases hforeign
  | create | indexRunId | indexSession | get | sweep | listActive | setCancelled => trivial

private theorem foreign_not_finishCancelled {op : RegistryOp Payload} (hforeign : s.foreign op)
    (endData : RunStatus → Payload) (endedAt now : ℚ) :
    op ≠ .finishCancelled endData endedAt now := by
  intro heq
  rw [heq] at hforeign
  cases hforeign

private theorem Inv.registryCalled (h : s.Inv) {op : RegistryOp Payload} (henabled : s.registry.Enabled op)
    (hforeign : s.foreign op) :
    { s with registry := s.registry.apply payloadCodec op }.Inv := by
  apply h.setRegistry
  · exact RunRegistry.size_le_apply (foreign_not_finishCancelled hforeign)
  · intro t ht
    exact RunRegistry.goesOn_apply (h.recordLt t ht) (foreign_spares hforeign ht)
  · exact RunRegistry.Slots.apply h.slots henabled (foreign_not_finishCancelled hforeign)

private theorem Inv.callbackFailed (h : s.Inv) (t : TaskId) (size : Nat) : (s.callbackFailed t size).Inv :=
  h.setRegistry (Nat.le_refl _) (fun _ _ => RunRegistry.goesOn_recordEvent (by decide))
    (RunRegistry.Slots.recordEvent h.slots _ _)

private theorem Inv.sweepAccepted (h : s.Inv) (now : ℚ) : (s.sweepAccepted now).Inv where
  toAdmission := h.toAdmission.sweepAccepted now
  progress t ht hphase := (h.progress t ht hphase).frame rfl (.of_eq rfl) rfl
  callbacks := h.callbacks
  writtenLt := h.writtenLt

private theorem Inv.started (h : s.Inv) {req : RunRequest} {reg : RunRegistry Payload} {key : String}
    (hrecords : reg.records = Function.update s.registry.records s.registry.size
      { runId := key, sessionId := none })
    (hsize : reg.size = s.registry.size + 1) (hslots : reg.Slots)
    (hunknown : s.accepted.lookup req.runId = none) (hfree : s.liveByJob.lookup req.jobId = none) :
    (s.started req reg).Inv := by
  have hnew : (s.started req reg).tasks s.size = { request := req, record := s.registry.size } := by
    simp [ScheduledRuns.started]
  refine ⟨h.toAdmission.started hrecords hsize hslots hunknown hfree, ?_, ?_, ?_⟩
  · intro t ht hphase
    rcases Nat.lt_succ_iff_lt_or_eq.mp ht with ht | rfl
    · rw [started_tasks_of_lt ht] at hphase
      exact (h.progress t ht hphase).frame (started_tasks_of_lt ht)
        (.of_eq (h.toAdmission.started_record hrecords ht)) rfl
    · have hrecord : reg.records s.registry.size = { runId := key, sessionId := none } := by
        rw [hrecords, Function.update_self]
      constructor
      · intro _
        rw [live, hnew]
        change reg.liveRef s.registry.size = true
        rw [RunRegistry.liveRef, hrecord]
        rfl
      · intro hcallback
        rw [hnew] at hcallback
        cases hcallback
      · rw [hnew]
        change (reg.records s.registry.size).Unended
        rw [hrecord]
        exact RunRecord.unended_new key none
      · rw [hnew]
        apply List.filter_eq_nil_iff.mpr
        intro w hw
        have hlt : w.1 < s.size := h.writtenLt w hw
        simpa using hlt.ne
  · have hold : (List.range s.size).countP (s.started req reg).inCallback =
        (List.range s.size).countP s.inCallback := by
      apply List.countP_congr
      intro t ht
      rw [inCallback, inCallback, started_tasks_of_lt (List.mem_range.mp ht)]
    have hlast : (s.started req reg).inCallback s.size = false := by simp [inCallback, hnew]
    change s.callbackSlots = (List.range (s.size + 1)).countP _
    rw [List.range_succ, List.countP_append, hold, h.callbacks]
    simp [hlast]
  · intro w hw
    exact (h.writtenLt w hw).trans (Nat.lt_succ_self _)

private theorem Inv.setWaiting (h : s.Inv) (waiting : List RunRequest) : { s with waiting := waiting }.Inv where
  toAdmission := h.toAdmission.of_status rfl (fun _ => ⟨rfl, rfl, rfl⟩) rfl rfl (Nat.le_refl _)
    (fun _ _ => rfl) h.slots
  progress t ht hphase := (h.progress t ht hphase).frame rfl (.of_eq rfl) rfl
  callbacks := h.callbacks
  writtenLt := h.writtenLt

private theorem sweepAccepted_known (s : ScheduledRuns) (now : ℚ) {runId : String}
    (hk : s.accepted.lookup runId = some t) :
    (s.sweepAccepted now).accepted.lookup runId = some t ∨ (s.tasks t).endedAt ≠ none := by
  cases hexp : s.expired now t with
  | false => exact .inl ((sweepAccepted_lookup s now runId t).mpr ⟨hk, hexp⟩)
  | true => exact .inr (expired_ended hexp)

private theorem startsOnce_of_swept {e : ExecutorEvent} (now : ℚ) (hsize : s'.size = s.size)
    (haccepted : s'.accepted = (s.sweepAccepted now).accepted) : StartsOnce s e s' where
  unknown t hle hlt := absurd (hsize ▸ hlt) (Nat.not_lt.mpr hle)
  known runId t hk := by
    rw [haccepted]
    exact sweepAccepted_known s now hk

private theorem Inv.post (h : s.Inv) (req : RunRequest) (now : ℚ) :
    (s.post req now).Inv ∧ StartsOnce s (.posted req now) (s.post req now) ∧
      EndsSettled s (s.post req now) := by
  have hswept := h.sweepAccepted now
  unfold ScheduledRuns.post
  rw [h.toAdmission.gates_eq]
  cases !(s.sweepAccepted now).isAccepted req.runId && (s.liveByJob.lookup req.jobId).isNone with
  | false =>
    exact ⟨hswept, startsOnce_of_swept now rfl rfl, endsSettled_of_phase fun _ _ hphase => hphase⟩
  | true =>
    exact ⟨hswept.setWaiting _, startsOnce_of_swept now rfl rfl, endsSettled_of_phase fun _ _ hphase => hphase⟩

private theorem Inv.admitted (h : s.Inv) (req : RunRequest) (i : Nat) (now : ℚ) (uuid : String) :
    (s.admitted req now uuid).Inv ∧ StartsOnce s (.capReturns i false now uuid) (s.admitted req now uuid) ∧
      EndsSettled s (s.admitted req now uuid) := by
  have hswept := h.sweepAccepted now
  unfold ScheduledRuns.admitted
  rw [h.toAdmission.gates_eq]
  cases hpass : !(s.sweepAccepted now).isAccepted req.runId && (s.liveByJob.lookup req.jobId).isNone with
  | false =>
    exact ⟨hswept, startsOnce_of_swept now rfl rfl, endsSettled_of_phase fun _ _ hphase => hphase⟩
  | true =>
    obtain ⟨hacc, hjob⟩ := Bool.and_eq_true_iff.mp hpass
    have hacc' : (s.sweepAccepted now).isAccepted req.runId = false := by simpa using hacc
    have hunknown : (s.sweepAccepted now).accepted.lookup req.runId = none := by
      simpa [isAccepted] using hacc'
    have hfree : (s.sweepAccepted now).liveByJob.lookup req.jobId = none :=
      Option.isNone_iff_eq_none.mp hjob
    dsimp only
    obtain ⟨reg, hslots, ⟨heq, hrecords, hsize⟩ | ⟨key, heq, hrecords, hsize⟩⟩ :=
      start_cases hswept.slots req now uuid
    · rw [heq]
      refine ⟨?_, startsOnce_of_swept now rfl rfl, endsSettled_of_phase fun _ _ hphase => hphase⟩
      exact hswept.setRegistry hsize.ge (fun t _ => .of_eq (by rw [hrecords])) hslots
    · rw [heq]
      refine ⟨hswept.started hrecords hsize hslots hunknown hfree, ⟨?_, ?_⟩, ?_⟩
      · intro t hle hlt
        have ht : t = s.size := le_antisymm (Nat.lt_succ_iff.mp hlt) hle
        refine ⟨i, now, uuid, rfl, ?_⟩
        have hnew : ((s.sweepAccepted now).started req reg).tasks t =
            { request := req, record := s.registry.size } := by
          rw [ht]
          exact Function.update_self _ _ _
        rw [hnew]
        exact hacc'
      · intro runId t hk
        rcases sweepAccepted_known s now hk with hk' | hended
        · have hne : runId ≠ req.runId := fun heq => by
            rw [heq, hunknown] at hk'
            cases hk'
          exact .inl ((AList.lookup_insert_ne hne).trans hk')
        · exact .inr hended
      · apply endsSettled_of_phase
        intro t ht hphase
        have htask : ((s.sweepAccepted now).started req reg).tasks t = s.tasks t :=
          Function.update_of_ne ht.ne _ _
        rw [htask]
        exact hphase

private theorem Inv.moveOpen (h : s.Inv) (ht : t < s.size) (hopen : (s.tasks t).phase.isOpen)
    {outcome : RunOutcome} {phase : ExecutionPhase} {written : List (TaskId × DataSpine.JobRunRecord)}
    (hphase : phase.isOpen)
    (hother : ∀ t' ≠ t, written.filter (fun w => w.1 = t') = s.writtenOf t')
    (hown : written.filter (fun w => w.1 = t) =
      if phase.handedOver then [(t, finishRecord (s.tasks t).request outcome)] else [])
    (hlt : ∀ w ∈ written, w.1 < s.size) :
    ({ s with written := written }.setTask t
      { s.tasks t with outcome := outcome, phase := phase }).Inv := by
  have hne : (s.tasks t).phase ≠ .ended := fun heq => by
    rw [heq] at hopen
    cases hopen
  have hprogress := h.progress t ht hne
  have hcallback : (s.tasks t).phase ≠ .callback := fun heq => by
    rw [heq] at hopen
    cases hopen
  have hcallback' : phase ≠ .callback := fun heq => by
    rw [heq] at hphase
    cases hphase
  have htask : ({ s with written := written }.setTask t
      { s.tasks t with outcome := outcome, phase := phase }).tasks t =
      { s.tasks t with outcome := outcome, phase := phase } := by simp [ScheduledRuns.setTask]
  apply h.of_task ht
  · have hadm : { s with written := written }.Admission :=
      h.toAdmission.of_status rfl (fun _ => ⟨rfl, rfl, rfl⟩) rfl rfl (Nat.le_refl _)
        (fun _ _ => rfl) h.slots
    exact hadm.setTask rfl rfl rfl
  · rfl
  · intro t' ht' htt
    exact ⟨by simp [ScheduledRuns.setTask, htt], .of_eq rfl, hother t' htt⟩
  · intro _
    constructor
    · intro _
      rw [live, htask]
      exact hprogress.running hopen
    · intro heq
      rw [htask] at heq
      exact absurd heq hcallback'
    · rw [htask]
      exact hprogress.unended
    · rw [handed, htask]
      exact hown
  · rw [inCallback, inCallback, htask]
    simp [hcallback, hcallback', ScheduledRuns.setTask]
  · exact hlt

private theorem filter_written_append {w : List (TaskId × DataSpine.JobRunRecord)} {rec : DataSpine.JobRunRecord}
    {t' : TaskId} (htt : t' ≠ t) :
    (w ++ [(t, rec)]).filter (fun w => w.1 = t') = w.filter fun w => w.1 = t' := by
  rw [List.filter_append]
  simp [Ne.symm htt]

private theorem filter_written_append_self {w : List (TaskId × DataSpine.JobRunRecord)}
    {rec : DataSpine.JobRunRecord} (hw : w.filter (fun w => w.1 = t) = []) :
    (w ++ [(t, rec)]).filter (fun w => w.1 = t) = [(t, rec)] := by
  rw [List.filter_append, hw]
  simp

private theorem writtenLt_append (h : s.Inv) (ht : t < s.size) (rec : DataSpine.JobRunRecord) :
    ∀ w ∈ s.written ++ [(t, rec)], w.1 < s.size := by
  intro w hw
  rcases List.mem_append.mp hw with hw | hw
  · exact h.writtenLt w hw
  · rw [List.mem_singleton.mp hw]
    exact ht

private theorem Inv.open_task (h : s.Inv) (ht : t < s.size) {phase : ExecutionPhase}
    (hphase : (s.tasks t).phase = phase) (hopen : phase.isOpen) :
    s.live t ∧ (s.registry.records (s.tasks t).record).Unended ∧
      s.writtenOf t = if phase.handedOver then [s.handed t] else [] := by
  have hne : (s.tasks t).phase ≠ .ended := fun heq => by
    rw [← hphase, heq] at hopen
    cases hopen
  have hprogress := h.progress t ht hne
  refine ⟨hprogress.running (hphase ▸ hopen), hprogress.unended, ?_⟩
  rw [← hphase]
  exact hprogress.written

def closedTo (s : ScheduledRuns) (t : TaskId) (signalFollowers : Bool) (now : ℚ)
    (written : List (TaskId × DataSpine.JobRunRecord)) (slots : Nat) (phase : ExecutionPhase) :
    ScheduledRuns :=
  { s.closeRecord t signalFollowers now with
    written := written, callbackSlots := slots }.moveTo t phase

section ClosedTo

variable {signalFollowers : Bool} {now : ℚ} {written : List (TaskId × DataSpine.JobRunRecord)}
  {slots : Nat} {phase : ExecutionPhase}

private theorem closedTo_task : (s.closedTo t signalFollowers now written slots phase).tasks t =
    { s.tasks t with endedAt := some now, phase := phase } := by
  simp [closedTo, moveTo, setTask, closeRecord]

private theorem closedTo_tasks_of_ne {t' : TaskId} (htt : t' ≠ t) :
    (s.closedTo t signalFollowers now written slots phase).tasks t' = s.tasks t' := by
  simp [closedTo, moveTo, setTask, closeRecord, htt]

private theorem Inv.closedTo (h : s.Inv) (ht : t < s.size) (hopen : (s.tasks t).phase.isOpen) (hlive : s.live t)
    (hother : ∀ t' ≠ t, written.filter (fun w => w.1 = t') = s.writtenOf t')
    (hlt : ∀ w ∈ written, w.1 < s.size)
    (hslots : slots = s.callbackSlots + if phase = .callback then 1 else 0)
    (hown : phase ≠ .ended → (s.closedTo t signalFollowers now written slots phase).Progress t) :
    (s.closedTo t signalFollowers now written slots phase).Inv := by
  have hcallback : (s.tasks t).phase ≠ .callback := fun heq => by
    rw [heq] at hopen
    cases hopen
  apply h.of_task ht
  · have hadm := h.toAdmission.closeRecord signalFollowers now ht hlive
    have hadm' : { s.closeRecord t signalFollowers now with
        written := written, callbackSlots := slots }.Admission :=
      hadm.of_status rfl (fun _ => ⟨rfl, rfl, rfl⟩) rfl rfl (Nat.le_refl _)
        (fun _ _ => rfl) hadm.slots
    exact hadm'.setTask rfl rfl rfl
  · rfl
  · intro t' ht' htt
    have hne : (s.tasks t').record ≠ (s.tasks t).record := fun heq =>
      htt (h.recordInj t' ht' t ht heq)
    exact ⟨closedTo_tasks_of_ne htt, .of_eq (closeRecord_records_of_ne signalFollowers now hne), hother t' htt⟩
  · intro hphase
    rw [closedTo_task] at hphase
    exact hown hphase
  · rw [inCallback, inCallback, closedTo_task]
    change slots + _ = _
    rw [hslots]
    simp [hcallback]
  · exact hlt

private theorem Inv.closedToEnded (h : s.Inv) (ht : t < s.size) (hopen : (s.tasks t).phase.isOpen)
    (hlive : s.live t) (hu : (s.registry.records (s.tasks t).record).Unended)
    (hother : ∀ t' ≠ t, written.filter (fun w => w.1 = t') = s.writtenOf t')
    (hown : written.filter (fun w => w.1 = t) = [s.handed t])
    (hlt : ∀ w ∈ written, w.1 < s.size) :
    (s.closedTo t true now written s.callbackSlots .ended).Inv ∧
      EndsSettled s (s.closedTo t true now written s.callbackSlots .ended) := by
  have hinv : (s.closedTo t true now written s.callbackSlots .ended).Inv :=
    h.closedTo ht hopen hlive hother hlt rfl fun hne => absurd rfl hne
  refine ⟨hinv, endsSettled_of_task (fun _ _ htt => closedTo_tasks_of_ne htt) fun _ => ?_⟩
  apply hinv.settled ht
  · rw [closedTo_task]
  · rw [closedTo_task]
    exact closeRecord_status true now hlive
  · rw [closedTo_task]
    exact closeRecord_ends now hlive hu
  · rw [handed, closedTo_task]
    exact hown

private theorem Inv.closedToCallback (h : s.Inv) (ht : t < s.size) (hopen : (s.tasks t).phase.isOpen)
    (hlive : s.live t) (hu : (s.registry.records (s.tasks t).record).Unended)
    (hown : s.writtenOf t = [s.handed t]) :
    (s.closedTo t false now s.written (s.callbackSlots + 1) .callback).Inv ∧
      EndsSettled s (s.closedTo t false now s.written (s.callbackSlots + 1) .callback) := by
  refine ⟨h.closedTo ht hopen hlive (fun _ _ => rfl) h.writtenLt rfl fun _ => ?_,
    endsSettled_of_task (fun _ _ htt => closedTo_tasks_of_ne htt) fun hended => ?_⟩
  swap
  · rw [closedTo_task] at hended
    cases hended
  constructor
  · intro hphase
    rw [closedTo_task] at hphase
    cases hphase
  · intro _
    rw [closedTo_task]
    exact closeRecord_status false now hlive
  · rw [closedTo_task]
    exact closeRecord_unended now hlive hu
  · rw [handed, closedTo_task]
    exact hown

end ClosedTo

private theorem Inv.begins (h : s.Inv) (hat : s.At t .created) : (s.moveTo t .body).Inv := by
  obtain ⟨ht, hphase⟩ := hat
  obtain ⟨-, -, hwritten⟩ := h.open_task ht hphase rfl
  exact h.moveOpen ht (hphase ▸ rfl) rfl (fun _ _ => rfl) hwritten h.writtenLt

private theorem Inv.writerBegins (h : s.Inv) (hat : s.At t (.finishing false)) :
    ((s.writeFinish t).moveTo t (.finishing true)).Inv := by
  obtain ⟨ht, hphase⟩ := hat
  obtain ⟨-, -, hwritten⟩ := h.open_task ht hphase rfl
  exact h.moveOpen ht (hphase ▸ rfl) rfl (fun _ htt => filter_written_append htt)
    (filter_written_append_self hwritten) (writtenLt_append h ht _)

private theorem Inv.bodyLeaves (h : s.Inv) (hat : s.At t .body) (outcome : RunOutcome) {phase : ExecutionPhase}
    (hopen : phase.isOpen) (hhanded : phase.handedOver = false) :
    (s.setTask t { s.tasks t with outcome := outcome, phase := phase }).Inv := by
  obtain ⟨ht, hphase⟩ := hat
  obtain ⟨-, -, hwritten⟩ := h.open_task ht hphase rfl
  refine h.moveOpen ht (hphase ▸ rfl) hopen (fun _ _ => rfl) ?_ h.writtenLt
  rw [hhanded]
  exact hwritten

private theorem Inv.bodyEnds (h : s.Inv) (hat : s.At t .body) (left : RunOutcome) {exit : BodyExit}
    (hexit : exit ≠ .escapes) (now : ℚ) :
    (s.bodyEnds t left exit now).Inv ∧ EndsSettled s (s.bodyEnds t left exit now) := by
  have hset : ∀ phase, (s.setTask t { s.tasks t with outcome := left.handled exit }).moveTo t phase =
      s.setTask t { s.tasks t with outcome := left.handled exit, phase := phase } := by
    intro phase
    simp [moveTo, setTask]
  have hfinishing : s.bodyEnds t left exit now =
      s.setTask t { s.tasks t with outcome := left.handled exit, phase := .finishing false } →
      (s.bodyEnds t left exit now).Inv ∧ EndsSettled s (s.bodyEnds t left exit now) := by
    intro heq
    rw [heq]
    refine ⟨h.bodyLeaves hat _ rfl rfl, endsSettled_of_task (t := t) ?_ ?_⟩
    · intro t' _ htt
      simp [setTask, htt]
    · intro hended
      simp [setTask] at hended
  cases exit with
  | returns => exact hfinishing (hset _)
  | raises message => exact hfinishing (hset _)
  | escapes => exact absurd rfl hexit
  | cancelled =>
    let mid := s.setTask t { s.tasks t with outcome := left.handled .cancelled, phase := .body }
    have hmid : s.setTask t { s.tasks t with outcome := left.handled .cancelled } = mid := by
      simp only [mid, ← hat.2]
    have hleft : mid.Inv := h.bodyLeaves hat _ rfl rfl
    have hphase : (mid.tasks t).phase = .body := by simp [mid, setTask]
    obtain ⟨hlive, hu, hwritten⟩ := hleft.open_task hat.1 hphase rfl
    have heq : s.bodyEnds t left .cancelled now =
        mid.closedTo t true now (mid.written ++ [mid.handed t]) mid.callbackSlots .ended := by
      unfold ScheduledRuns.bodyEnds
      dsimp only
      rw [hmid, ScheduledRuns.closedTo, writeFinish, closeRecord_task]
      rfl
    rw [heq]
    obtain ⟨hinv, hends⟩ := hleft.closedToEnded hat.1 (hphase ▸ rfl) hlive hu
      (fun _ htt => filter_written_append htt) (filter_written_append_self hwritten)
      (writtenLt_append hleft hat.1 _)
    refine ⟨hinv, hends.of_phase fun t' ht' hne => ⟨ht', ?_⟩⟩
    by_cases htt : t' = t
    · rw [htt, hphase]
      exact ExecutionPhase.noConfusion
    · simpa [mid, setTask, htt] using hne

private theorem Inv.finishEnds (h : s.Inv) (hat : s.At t (.finishing true)) (now : ℚ) :
    ((s.closeRecord t true now).moveTo t .ended).Inv ∧
      EndsSettled s ((s.closeRecord t true now).moveTo t .ended) := by
  obtain ⟨ht, hphase⟩ := hat
  obtain ⟨hlive, hu, hwritten⟩ := h.open_task ht hphase rfl
  exact h.closedToEnded ht (hphase ▸ rfl) hlive hu (fun _ _ => rfl) hwritten h.writtenLt

private theorem Inv.finishReturns (h : s.Inv) (hat : s.At t (.finishing true)) (written : Bool) (now : ℚ) :
    (s.finishReturns t written now).Inv ∧ EndsSettled s (s.finishReturns t written now) := by
  unfold ScheduledRuns.finishReturns
  cases hrequested : (s.tasks t).request.callback with
  | false =>
    cases written with
    | false => exact h.finishEnds hat now
    | true => exact h.finishEnds hat now
  | true =>
    cases written with
    | false =>
      have hfailed := (h.callbackFailed t 103).finishEnds hat now
      exact hfailed
    | true =>
      obtain ⟨ht, hphase⟩ := hat
      obtain ⟨hlive, hu, hwritten⟩ := h.open_task ht hphase rfl
      exact h.closedToCallback ht (hphase ▸ rfl) hlive hu hwritten

/-- The callback is over: the held back end is signalled, and the slot is given back. -/
theorem Inv.signalled (h : s.Inv) (hat : s.At t .callback) : ({ s with
      registry := signalRunEnd s.registry (s.tasks t).record
      callbackSlots := s.callbackSlots - 1 }.moveTo t .ended).Inv ∧
    EndsSettled s ({ s with
      registry := signalRunEnd s.registry (s.tasks t).record
      callbackSlots := s.callbackSlots - 1 }.moveTo t .ended) := by
  let s' := { s with
    registry := signalRunEnd s.registry (s.tasks t).record
    callbackSlots := s.callbackSlots - 1 }.moveTo t .ended
  obtain ⟨ht, hphase⟩ := hat
  have hprogress := h.progress t ht (by rw [hphase]; exact ExecutionPhase.noConfusion)
  have htask : s'.tasks t = { s.tasks t with phase := .ended } := by simp [s', moveTo, setTask]
  have hother : ∀ t' < s.size, t' ≠ t → s'.tasks t' = s.tasks t' := by
    intro t' _ htt
    simp [s', moveTo, setTask, htt]
  have hinv : s'.Inv := by
    apply h.of_task ht
    · have hadm : { s with
          registry := signalRunEnd s.registry (s.tasks t).record
          callbackSlots := s.callbackSlots - 1 }.Admission :=
        h.toAdmission.of_status rfl (fun _ => ⟨rfl, rfl, rfl⟩) rfl rfl
          (RunRegistry.signalRunEnd_size _ _).ge
          (fun _ _ => RunRegistry.signalRunEnd_status _ _ _) (h.slots.signalRunEnd _)
      exact hadm.setTask rfl rfl rfl
    · rfl
    · intro t' ht' htt
      have hne : (s.tasks t').record ≠ (s.tasks t).record := fun heq =>
        htt (h.recordInj t' ht' t ht heq)
      exact ⟨hother t' ht' htt, .of_eq (RunRegistry.signalRunEnd_of_ne hne), rfl⟩
    · intro hne
      rw [htask] at hne
      exact absurd rfl hne
    · have hcount := countP_range_apart s.inCallback ht
      have hcall : s.inCallback t = true := by simp [inCallback, hphase]
      have hdone : s'.inCallback t = false := by simp [inCallback, htask]
      have hbefore := h.callbacks
      rw [hcall] at hcount ⊢
      rw [hdone]
      change s.callbackSlots - 1 + _ = _
      simp only [if_true, Bool.false_eq_true, if_false] at hcount ⊢
      omega
    · exact h.writtenLt
  refine ⟨hinv, endsSettled_of_task hother fun _ => hinv.settled ht ?_ ?_ ?_ ?_⟩
  · rw [htask]
  · rw [htask]
    exact (RunRegistry.signalRunEnd_status _ _ _).trans (hprogress.closed hphase)
  · rw [htask]
    exact RunRegistry.ends_signalRunEnd hprogress.unended
  · have hwritten := hprogress.written
    rw [hphase] at hwritten
    rw [handed, htask]
    exact hwritten

private theorem Inv.callbackEnds (h : s.Inv) (hat : s.At t .callback) (exit : CallbackExit) :
    (s.callbackEnds t exit).Inv ∧ EndsSettled s (s.callbackEnds t exit) := by
  cases exit with
  | returns => exact h.signalled hat
  | unwinds => exact h.signalled hat
  | raises size => exact (h.callbackFailed t size).signalled hat

private theorem Inv.stepAdmission (h : s.Inv) {i : Nat} {reached : Bool} {now : ℚ} {uuid : String}
    (hs : s.stepAdmission i reached now uuid = some s') :
    s'.Inv ∧ StartsOnce s (.capReturns i reached now uuid) s' ∧ EndsSettled s s' := by
  unfold ScheduledRuns.stepAdmission at hs
  split at hs
  · cases hs
  · rename_i req _
    have hwaiting := h.setWaiting (s.waiting.eraseIdx i)
    cases reached with
    | true =>
      cases hs
      exact ⟨hwaiting, startsOnce_of_eq rfl rfl, endsSettled_of_phase fun _ _ hphase => hphase⟩
    | false =>
      cases hs
      obtain ⟨hinv, hstarts, hends⟩ := hwaiting.admitted req i now uuid
      exact ⟨hinv, ⟨hstarts.unknown, hstarts.known⟩, hends⟩

private theorem Inv.step (h : s.Inv) {e : ExecutorEvent} (hhandled : s.Handled e)
    (hs : s.step e = some s') : s'.Inv ∧ StartsOnce s e s' ∧ EndsSettled s s' := by
  cases e with
  | posted req now =>
    cases hs
    exact h.post req now
  | capReturns i reached now uuid => exact h.stepAdmission hs
  | postDropped i =>
    cases hs
    exact ⟨h.setWaiting _, startsOnce_of_eq rfl rfl, endsSettled_of_phase fun _ _ hphase => hphase⟩
  | registryCalled op =>
    obtain ⟨⟨henabled, hforeign⟩, heq⟩ := Option.ite_none_right_eq_some.mp hs
    cases heq
    exact ⟨h.registryCalled henabled hforeign, startsOnce_of_eq rfl rfl,
      endsSettled_of_phase fun _ _ hphase => hphase⟩
  | begins t =>
    obtain ⟨hat, heq⟩ := Option.ite_none_right_eq_some.mp hs
    cases heq
    refine ⟨h.begins hat, startsOnce_of_eq rfl rfl, endsSettled_of_task (t := t) ?_ ?_⟩
    · intro t' _ htt
      simp [moveTo, setTask, htt]
    · intro hended
      simp [moveTo, setTask] at hended
  | cancelledUnstarted t => exact hhandled.elim
  | bodyEnds t left exit now =>
    obtain ⟨hat, heq⟩ := Option.ite_none_right_eq_some.mp hs
    cases heq
    obtain ⟨hinv, hends⟩ := h.bodyEnds hat left hhandled now
    refine ⟨hinv, startsOnce_of_eq ?_ ?_, hends⟩
    · cases exit <;> rfl
    · cases exit <;> rfl
  | writerBegins t =>
    obtain ⟨hat, heq⟩ := Option.ite_none_right_eq_some.mp hs
    cases heq
    refine ⟨h.writerBegins hat, startsOnce_of_eq rfl rfl, endsSettled_of_task (t := t) ?_ ?_⟩
    · intro t' _ htt
      simp [writeFinish, moveTo, setTask, htt]
    · intro hended
      simp [moveTo, setTask] at hended
  | finishReturns t written now =>
    obtain ⟨hat, heq⟩ := Option.ite_none_right_eq_some.mp hs
    cases heq
    obtain ⟨hinv, hends⟩ := h.finishReturns hat written now
    refine ⟨hinv, startsOnce_of_eq ?_ ?_, hends⟩
    · unfold ScheduledRuns.finishReturns
      cases (s.tasks t).request.callback <;> cases written <;> rfl
    · unfold ScheduledRuns.finishReturns
      cases (s.tasks t).request.callback <;> cases written <;> rfl
  | finishRaises t now =>
    obtain ⟨hat, heq⟩ := Option.ite_none_right_eq_some.mp hs
    cases heq
    obtain ⟨hinv, hends⟩ := h.finishEnds hat now
    exact ⟨hinv, startsOnce_of_eq rfl rfl, hends⟩
  | finishCancelled t now =>
    obtain ⟨hat, heq⟩ := Option.ite_none_right_eq_some.mp hs
    cases heq
    have hbegun : s.At t (.finishing true) := by
      rcases hat with hat | hat
      · exact ⟨hat.1, hhandled⟩
      · exact hat
    obtain ⟨hinv, hends⟩ := h.finishEnds hbegun now
    exact ⟨hinv, startsOnce_of_eq rfl rfl, hends⟩
  | callbackEnds t exit =>
    obtain ⟨hat, heq⟩ := Option.ite_none_right_eq_some.mp hs
    cases heq
    obtain ⟨hinv, hends⟩ := h.callbackEnds hat exit
    refine ⟨hinv, startsOnce_of_eq ?_ ?_, hends⟩
    · cases exit <;> rfl
    · cases exit <;> rfl

/-- In a run whose tasks all end in a handled way, every section is orderly. -/
theorem orderly_of_handled (es : List ExecutorEvent) (h : RunMeets step Handled init es) :
    RunMeets step Orderly init es := by
  apply runMeets_of_invariant (fun s e s' hi hc hs => (Inv.step hi hc hs).1) ?_ inv_init h
  intro s e hi hc s' hs
  obtain ⟨hinv, hstarts, hends⟩ := hi.step hc hs
  exact ⟨hstarts, hinv.toAdmission.oneLivePerJob, hends⟩

/-- A run that is admitted, returns and is written. -/
def admittedRun : List ExecutorEvent :=
  [.posted { runId := "r", jobId := "j" } 0, .capReturns 0 false 0 "u", .begins 0,
    .bodyEnds 0 { status := .success } .returns 1]

theorem orderly_writtenRun :
    RunMeets step Orderly init (admittedRun ++ [.writerBegins 0, .finishReturns 0 true 2]) ∧
      ∃ s, run step init (admittedRun ++ [.writerBegins 0, .finishReturns 0 true 2]) = some s ∧
        (s.tasks 0).phase = .ended := by
  refine ⟨orderly_of_handled _ (by decide), ?_⟩
  obtain ⟨s, hr, ht⟩ := exists_run_of_map step init
    (admittedRun ++ [.writerBegins 0, .finishReturns 0 true 2])
    (fun s => (s.tasks 0).phase = .ended) (by decide)
  exact ⟨s, hr, by simpa using ht⟩

/-- The finish waits for a thread when the cancellation comes, and is never written. -/
theorem cancelledFinish_not_orderly : ¬ RunMeets step Orderly init (admittedRun ++ [.finishCancelled 0 2]) := by
  intro h
  obtain ⟨s, hr, ht⟩ := exists_run_of_map step init admittedRun
    (fun s => decide (0 < s.size) && decide ((s.tasks 0).phase ≠ .ended) &&
      ((s.step (.finishCancelled 0 2)).map fun s' : ScheduledRuns =>
        decide ((s'.tasks 0).phase = .ended) && s'.written.isEmpty).getD false) (by decide)
  simp only [Bool.and_eq_true, decide_eq_true_eq] at ht
  obtain ⟨⟨hsize, hphase⟩, hstep⟩ := ht
  cases hs : s.step (.finishCancelled 0 2) with
  | none =>
    rw [hs] at hstep
    cases hstep
  | some s' =>
    rw [hs] at hstep
    simp only [Option.map_some, Option.getD_some, Bool.and_eq_true, decide_eq_true_eq,
      List.isEmpty_iff] at hstep
    have hsettled := (((h.split hr).2.1 s' hs).2.2 0 hsize hphase hstep.1).written
    rw [hstep.2] at hsettled
    cases hsettled

end ScheduledRuns

end PrivaCloud.AgentRunner
