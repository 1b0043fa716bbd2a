import PrivaCloud.AgentRunner.RunRegistry.Owners

/-!
# Every run ends once

A record that has ended keeps its end as the last event, and a live one has an owner. The `finally` of the
run task and the close of a runtime look at the status first; the handler of a cancellation, the frames of a
peer turn, the events of the run task and the answers of a socket do not.
-/

namespace PrivaCloud.AgentRunner

open Framework

/-- The runtime will end the record, with the result of its peer turn or with its close. -/
def PeerRuntime.Holds (rt : PeerRuntime) (r : RecordId) : Prop :=
  (rt.record = some r ∧ rt.close ≠ .closed) ∨ rt.close = .closing (some r)

instance (rt : PeerRuntime) (r : RecordId) : Decidable (rt.Holds r) :=
  inferInstanceAs (Decidable (_ ∨ _))

namespace RunOwners

/-- No end yet while the record is live, and after that one end, which is the last event and tells the
status. -/
structure Sealed (s : RunOwners) (r : RecordId) : Prop where
  running : s.live r → ∀ e ∈ s.log r, e.1 ≠ .runEnd
  terminal : s.live r = false → ∃ front, s.log r = front ++ [(.runEnd, .status (s.status r))] ∧
    ∀ e ∈ front, e.1 ≠ .runEnd

/-- The run task is still to end, or a runtime holds the record. -/
def Attended (s : RunOwners) (r : RecordId) : Prop :=
  s.runs r = .created ∨ s.runs r = .body ∨ ∃ rt ∈ s.runtimes, rt.Holds r

def EndsOnce (s : RunOwners) : Prop :=
  ∀ r < s.registry.size, s.Sealed r ∧ (s.live r → s.Attended r)

/-- What is recorded without a look at the status is recorded on a live record, no peer turn starts
on a runtime that closes, and a task or a close that is cut short leaves its record attended. -/
def Minded (s : RunOwners) : OwnerEvent → Prop
  | .emits r eventType _ => eventType = .keepalive ∨ s.live r
  | .readerRecords r _ => s.live r
  | .executeRunEnds r exit _ =>
    match exit with
    | .raises _ | .cancelled => s.live r
    | .returns | .escapes => True
  | .cancelledUnstarted r => s.live r → ∃ rt ∈ s.runtimes, rt.Holds r
  | .peerFrame i frame admission _ _ =>
    ∀ rt ∈ s.runtimes[i]?,
      if rt.active then
        ∀ r ∈ rt.record, frame.event = none ∧ frame.result = none ∨ s.live r
      else frame.peer → admission → rt.close = .unclosed
  | .closeCut i =>
    ∀ rt ∈ s.runtimes[i]?, ∀ r < s.registry.size, rt.close = .closing (some r) → s.live r →
      s.runs r = .created ∨ s.runs r = .body ∨ ∃ rt' ∈ s.runtimes.eraseIdx i, rt'.Holds r
  | .wsInit .. | .runBegins _ | .registryCalled _ | .runtimeAdded _ | .residentSet ..
  | .sessionSet .. | .closeBegins _ | .closeEnds .. => True

instance (s : RunOwners) (e : OwnerEvent) : Decidable (s.Minded e) := by
  cases e <;> dsimp only [Minded] <;> first | infer_instance | (split <;> infer_instance)

variable {s s' : RunOwners} {r : RecordId} {i : Nat} {rt : PeerRuntime}

/-- A runtime names records that exist, is active while it has one, and has none once its close has
begun. -/
structure WellFormed (s : RunOwners) (rt : PeerRuntime) : Prop where
  recordLt : ∀ r, rt.record = some r → r < s.registry.size
  capturedLt : ∀ r, rt.close = .closing (some r) → r < s.registry.size
  active : rt.active = rt.record.isSome
  closing : rt.close ≠ .unclosed → rt.record = none

structure Core (s : RunOwners) : Prop where
  ends : ∀ r < s.registry.size, s.Sealed r
  fresh : ∀ r, s.registry.size ≤ r → s.runs r = .none ∧ s.log r = []
  runtimes : ∀ rt ∈ s.runtimes, s.WellFormed rt
  refs : s.registry.SessionRefs

structure Inv (s : RunOwners) : Prop extends Core s where
  attended : ∀ r < s.registry.size, s.live r → s.Attended r

private theorem inv_init : init.Inv where
  ends _ h := absurd h (Nat.not_lt_zero _)
  fresh _ _ := ⟨rfl, rfl⟩
  runtimes _ h := by cases h
  refs _ _ h := by cases h
  attended _ h := absurd h (Nat.not_lt_zero _)

private theorem Sealed.congr (h : s.Sealed r) (hstatus : s'.status r = s.status r)
    (hlog : s'.log r = s.log r) : s'.Sealed r := by
  have hlive : s'.live r = s.live r := by rw [live, live, hstatus]
  constructor
  · rw [hlive, hlog]
    exact h.running
  · rw [hlive, hlog, hstatus]
    exact h.terminal

private theorem Inv.of_quiet (h : s.Inv) (hsize : s'.registry.size = s.registry.size)
    (hstatus : ∀ r < s.registry.size, s'.status r = s.status r) (hlog : s'.log = s.log)
    (hfresh : ∀ r, s.registry.size ≤ r → s'.runs r = .none)
    (hruntimes : ∀ rt ∈ s'.runtimes, s'.WellFormed rt) (hrefs : s'.registry.SessionRefs)
    (hattended : ∀ r < s.registry.size, s.live r → s.Attended r → s'.Attended r) : s'.Inv := by
  refine ⟨⟨?_, ?_, hruntimes, hrefs⟩, ?_⟩
  · intro r hr
    rw [hsize] at hr
    exact (h.ends r hr).congr (hstatus r hr) (by rw [hlog])
  · intro r hr
    rw [hsize] at hr
    rw [hlog]
    exact ⟨hfresh r hr, (h.fresh r hr).2⟩
  · intro r hr hl
    rw [hsize] at hr
    rw [live, hstatus r hr] at hl
    exact hattended r hr hl (h.attended r hr hl)

private theorem WellFormed.of_size (h : s.WellFormed rt) (hsize : s.registry.size ≤ s'.registry.size) :
    s'.WellFormed rt where
  recordLt r hr := (h.recordLt r hr).trans_le hsize
  capturedLt r hr := (h.capturedLt r hr).trans_le hsize
  active := h.active
  closing := h.closing

private theorem recordEvent_status (s : RunOwners) (r r' : RecordId) (t : EventType) (d : Payload) :
    (s.recordEvent r t d).status r' = s.status r' := by
  by_cases hr : r' = r
  · simp [recordEvent, status, RunRegistry.recordEvent, hr]
  · simp [recordEvent, status, RunRegistry.recordEvent, hr]

variable {r' : RecordId}

private theorem recordEvent_log_of_ne (hr : r' ≠ r) (t : EventType) (d : Payload) :
    (s.recordEvent r t d).log r' = s.log r' := by
  unfold recordEvent
  dsimp only
  split
  · rfl
  · rw [Function.update_of_ne hr]

variable {t : EventType}

private theorem recordEvent_log (ht : t ≠ .keepalive) (d : Payload) :
    (s.recordEvent r t d).log r = s.log r ++ [(t, d)] := by
  simp [recordEvent, ht]

private theorem recordEvent_keepalive (d : Payload) : s.recordEvent r .keepalive d = s := by
  unfold recordEvent
  have hreg : s.registry.recordEvent payloadCodec r .keepalive d = s.registry := by
    simp [RunRegistry.recordEvent, RunRecord.recordEvent]
  rw [hreg]
  rfl

private theorem Sealed.recordEvent (h : s.Sealed r) (hl : s.live r) (ht : t ≠ .runEnd)
    (hk : t ≠ .keepalive) (d : Payload) : (s.recordEvent r t d).Sealed r := by
  have hlive : (s.recordEvent r t d).live r = true := by rw [live, recordEvent_status, ← live, hl]
  constructor
  · intro _ e he
    rw [recordEvent_log hk] at he
    rcases List.mem_append.mp he with he | he
    · exact h.running hl e he
    · rw [List.mem_singleton.mp he]
      exact ht
  · intro hfalse
    rw [hlive] at hfalse
    cases hfalse

private theorem Inv.recordEvent (h : s.Inv) (hr : r < s.registry.size) (ht : t ≠ .runEnd)
    (hl : t = .keepalive ∨ s.live r) (d : Payload) : (s.recordEvent r t d).Inv := by
  by_cases hk : t = .keepalive
  · rw [hk, recordEvent_keepalive]
    exact h
  · have hl' : s.live r := hl.resolve_left hk
    refine ⟨⟨?_, ?_, ?_, h.refs⟩, ?_⟩
    · intro r' hr'
      by_cases hrr : r' = r
      · rw [hrr]
        exact (h.ends r hr).recordEvent hl' ht hk d
      · exact (h.ends r' hr').congr (recordEvent_status s r r' t d) (recordEvent_log_of_ne hrr t d)
    · intro r' hr'
      have hrr : r' ≠ r := fun heq => absurd hr (Nat.not_lt.mpr (heq ▸ hr'))
      rw [recordEvent_log_of_ne hrr]
      exact h.fresh r' hr'
    · intro rt hrt
      exact (h.runtimes rt hrt).of_size (Nat.le_refl _)
    · intro r' hr' hlive
      rw [live, recordEvent_status] at hlive
      exact h.attended r' hr' hlive

private theorem endRun_size (s : RunOwners) (r : RecordId) (st : RunStatus) (now : ℚ) :
    (s.endRun r st now).registry.size = s.registry.size :=
  RunRegistry.finish_size st now now

private theorem endRun_status_of_ne (hr : r' ≠ r) (st : RunStatus) (now : ℚ) :
    (s.endRun r st now).status r' = s.status r' := by
  rw [endRun, recordEvent_status, status, RunRegistry.finish_records_of_ne hr, status]

private theorem endRun_status (hl : s.live r) (st : RunStatus) (now : ℚ) : (s.endRun r st now).status r = st := by
  rw [endRun, recordEvent_status]
  exact (RunRegistry.finish_record hl st now now).1

private theorem endRun_log_of_ne (hr : r' ≠ r) (st : RunStatus) (now : ℚ) :
    (s.endRun r st now).log r' = s.log r' :=
  recordEvent_log_of_ne hr _ _

private theorem endRun_log (hl : s.live r) (st : RunStatus) (now : ℚ) :
    (s.endRun r st now).log r = s.log r ++ [(.runEnd, .status st)] := by
  have hst := endRun_status hl st now
  rw [endRun, recordEvent_status] at hst
  rw [endRun, recordEvent_log (by decide), hst]

private theorem Sealed.endRun (h : s.Sealed r) (hl : s.live r) {st : RunStatus} (hst : st ≠ .running)
    (now : ℚ) : (s.endRun r st now).Sealed r := by
  constructor
  · intro hlive
    rw [live, endRun_status hl] at hlive
    exact absurd (of_decide_eq_true hlive) hst
  · intro _
    rw [endRun_log hl, endRun_status hl]
    exact ⟨s.log r, rfl, h.running hl⟩

private theorem Inv.endRun (h : s.Inv) (hr : r < s.registry.size) (hl : s.live r) {st : RunStatus}
    (hst : st ≠ .running) (now : ℚ) : (s.endRun r st now).Inv := by
  refine ⟨⟨?_, ?_, ?_, h.refs.finish st now now⟩, ?_⟩
  · intro r' hr'
    rw [endRun_size] at hr'
    by_cases hrr : r' = r
    · rw [hrr]
      exact (h.ends r hr).endRun hl hst now
    · exact (h.ends r' hr').congr (endRun_status_of_ne hrr st now) (endRun_log_of_ne hrr st now)
  · intro r' hr'
    rw [endRun_size] at hr'
    have hrr : r' ≠ r := fun heq => absurd hr (Nat.not_lt.mpr (heq ▸ hr'))
    rw [endRun_log_of_ne hrr]
    exact h.fresh r' hr'
  · intro rt hrt
    exact (h.runtimes rt hrt).of_size (endRun_size s r st now).ge
  · intro r' hr' hlive
    rw [endRun_size] at hr'
    by_cases hrr : r' = r
    · rw [hrr, live, endRun_status hl] at hlive
      exact absurd (of_decide_eq_true hlive) hst
    · rw [live, endRun_status_of_ne hrr] at hlive
      exact h.attended r' hr' hlive

/-- The run task moves on; one that ends leaves a live record to a runtime. -/
theorem Inv.setRun (h : s.Inv) (hr : r < s.registry.size) {state : RunTaskState}
    (hstate : state = .created ∨ state = .body ∨ (s.live r → ∃ rt ∈ s.runtimes, rt.Holds r)) :
    (s.setRun r state).Inv := by
  apply h.of_quiet
  · rfl
  · exact fun _ _ => rfl
  · rfl
  · intro r' hr'
    have hrr : r' ≠ r := fun heq => absurd hr (Nat.not_lt.mpr (heq ▸ hr'))
    simpa [RunOwners.setRun, hrr] using (h.fresh r' hr').1
  · intro rt hrt
    exact (h.runtimes rt hrt).of_size (Nat.le_refl _)
  · exact h.refs
  · intro r' _ hl hatt
    by_cases hrr : r' = r
    · rw [hrr] at hl ⊢
      have hruns : (s.setRun r state).runs r = state := by simp [RunOwners.setRun]
      unfold Attended
      rw [hruns]
      rcases hstate with hst | hst | hst
      · exact .inl hst
      · exact .inr (.inl hst)
      · exact .inr (.inr (hst hl))
    · have hruns : (s.setRun r state).runs r' = s.runs r' := by simp [RunOwners.setRun, hrr]
      unfold Attended
      rw [hruns]
      exact hatt

/-- A runtime changes; what it lets go of is not live or has another owner. -/
theorem Inv.setRuntime (h : s.Inv) (hi : s.runtimes[i]? = some rt) {new : PeerRuntime} (hnew : s.WellFormed new)
    (hkeep : ∀ r < s.registry.size, s.live r → rt.Holds r → new.Holds r ∨ s.runs r = .created ∨
      s.runs r = .body ∨ ∃ rt' ∈ s.runtimes.eraseIdx i, rt'.Holds r) :
    (s.setRuntime i new).Inv := by
  have hlt : i < s.runtimes.length := (List.getElem?_eq_some_iff.mp hi).1
  have hmem : ∀ j rt', j ≠ i → s.runtimes[j]? = some rt' → rt' ∈ (s.setRuntime i new).runtimes := by
    intro j rt' hj hrt'
    apply List.mem_of_getElem?
    rw [RunOwners.setRuntime, List.getElem?_set_ne (Ne.symm hj)]
    exact hrt'
  apply h.of_quiet
  · rfl
  · exact fun _ _ => rfl
  · rfl
  · exact fun r' hr' => (h.fresh r' hr').1
  · intro rt' hrt'
    rcases List.mem_or_eq_of_mem_set hrt' with hrt' | rfl
    · exact (h.runtimes rt' hrt').of_size (Nat.le_refl _)
    · exact hnew.of_size (Nat.le_refl _)
  · exact h.refs
  · intro r' hr' hl hatt
    rcases hatt with hruns | hruns | ⟨rt', hrt', hholds⟩
    · exact .inl hruns
    · exact .inr (.inl hruns)
    · obtain ⟨j, hj⟩ := List.mem_iff_getElem?.mp hrt'
      by_cases hji : j = i
      · rw [hji, hi] at hj
        cases hj
        rcases hkeep r' hr' hl hholds with hk | hk | hk | ⟨rt'', hrt'', hk⟩
        · exact .inr (.inr ⟨new, List.mem_set hlt _, hk⟩)
        · exact .inl hk
        · exact .inr (.inl hk)
        · obtain ⟨k, hki, hk'⟩ := List.mem_eraseIdx_iff_getElem?.mp hrt''
          exact .inr (.inr ⟨rt'', hmem k rt'' hki hk', hk⟩)
      · exact .inr (.inr ⟨rt', hmem j rt' hji hj, hholds⟩)

variable {reg : RunRegistry Payload}

private theorem Core.create (h : s.Core) {key : String} {sessionId : Option String}
    (hrecords : reg.records = Function.update s.registry.records s.registry.size
      { runId := key, sessionId := sessionId })
    (hsize : reg.size = s.registry.size + 1) (hrefs : reg.SessionRefs) :
    { s with registry := reg }.Core := by
  have hold : ∀ r < s.registry.size, { s with registry := reg }.status r = s.status r := by
    intro r hr
    rw [status, status, hrecords, Function.update_of_ne hr.ne]
  refine ⟨?_, ?_, ?_, hrefs⟩
  · intro r hr
    change r < reg.size at hr
    rw [hsize] at hr
    rcases Nat.lt_succ_iff_lt_or_eq.mp hr with hr | rfl
    · exact (h.ends r hr).congr (hold r hr) rfl
    · have hlog : s.log s.registry.size = [] := (h.fresh _ (Nat.le_refl _)).2
      have hlive : { s with registry := reg }.live s.registry.size = true := by
        rw [live, status, hrecords, Function.update_self]
        rfl
      constructor
      · intro _ e he
        rw [hlog] at he
        cases he
      · intro hfalse
        rw [hlive] at hfalse
        cases hfalse
  · intro r hr
    change reg.size ≤ r at hr
    exact h.fresh r (by omega)
  · intro rt hrt
    apply (h.runtimes rt hrt).of_size
    change _ ≤ reg.size
    omega

private theorem Inv.created (h : s.Inv) {key : String} {sessionId : Option String}
    (hrecords : reg.records = Function.update s.registry.records s.registry.size
      { runId := key, sessionId := sessionId })
    (hsize : reg.size = s.registry.size + 1) (hrefs : reg.SessionRefs)
    (hregistry : s'.registry = reg) (hlog : s'.log = s.log)
    (hfresh : ∀ r, reg.size ≤ r → s'.runs r = .none)
    (hruntimes : ∀ rt ∈ s'.runtimes, s'.WellFormed rt) (hnew : s'.Attended s.registry.size)
    (hattended : ∀ r < s.registry.size, s.Attended r → s'.Attended r) : s'.Inv := by
  have hcore := h.toCore.create hrecords hsize hrefs
  have hstatus : ∀ r, s'.status r = { s with registry := reg }.status r := by
    intro r
    rw [status, status, hregistry]
  refine ⟨⟨?_, ?_, hruntimes, hregistry ▸ hrefs⟩, ?_⟩
  · intro r hr
    rw [hregistry] at hr
    exact (hcore.ends r hr).congr (hstatus r) (by rw [hlog])
  · intro r hr
    rw [hregistry] at hr
    rw [hlog]
    exact ⟨hfresh r hr, (hcore.fresh r hr).2⟩
  · intro r hr hl
    rw [hregistry, hsize] at hr
    rcases Nat.lt_succ_iff_lt_or_eq.mp hr with hr | rfl
    · apply hattended r hr (h.attended r hr ?_)
      rw [live, status, hregistry, hrecords, Function.update_of_ne hr.ne] at hl
      exact hl
    · exact hnew

private theorem quiet_apply {op : RegistryOp Payload} (hquiet : quiet op) (reg : RunRegistry Payload) :
    (reg.apply payloadCodec op).size = reg.size ∧
      ∀ r < reg.size, ((reg.apply payloadCodec op).records r).status = (reg.records r).status := by
  have hspares : ∀ r, RunRegistry.Spares r op := by
    intro r
    cases op with
    | create | finish | finishCancelled | recordEvent => cases hquiet
    | indexRunId | indexSession | get | sweep | listActive | setCancelled => trivial
  refine ⟨?_, fun r hr => (RunRegistry.goesOn_apply hr (hspares r)).status⟩
  cases op with
  | create | finish | finishCancelled | recordEvent => cases hquiet
  | indexRunId r' runId =>
    unfold RunRegistry.apply RunRegistry.indexRunId
    dsimp only
    split <;> rfl
  | indexSession r' sessionId =>
    rw [RunRegistry.apply]
    rcases RunRegistry.indexSession_cases reg r' sessionId with heq | heq
    · rw [heq]
    · rw [heq]
      rfl
  | get now sessionId runId =>
    rw [RunRegistry.apply, RunRegistry.get_records]
    rfl
  | sweep | listActive | setCancelled => rfl

private theorem quiet_refs {op : RegistryOp Payload} (hquiet : quiet op)
    (henabled : reg.Enabled op) (h : reg.SessionRefs) :
    (reg.apply payloadCodec op).SessionRefs := by
  cases op with
  | create | finish | finishCancelled | recordEvent => cases hquiet
  | indexRunId r' runId =>
    unfold RunRegistry.apply RunRegistry.indexRunId
    dsimp only
    split
    · exact h
    · exact h
  | indexSession r' sessionId =>
    rw [RunRegistry.apply]
    rcases RunRegistry.indexSession_cases reg r' sessionId with heq | heq
    · rw [heq]
      exact h
    · rw [heq]
      exact h.rekeySession henabled sessionId
  | get now sessionId runId =>
    rw [RunRegistry.apply, RunRegistry.get_records]
    exact h.sweep now
  | sweep now => exact h.sweep now
  | listActive now => exact h.sweep now
  | setCancelled r' => exact h

private theorem Inv.setRegistry (h : s.Inv) (hsize : reg.size = s.registry.size)
    (hrefs : reg.SessionRefs)
    (hstatus : ∀ r < s.registry.size, (reg.records r).status = (s.registry.records r).status) :
    { s with registry := reg }.Inv := by
  apply h.of_quiet
  · exact hsize
  · exact hstatus
  · rfl
  · exact fun r hr => (h.fresh r hr).1
  · intro rt hrt
    exact (h.runtimes rt hrt).of_size hsize.ge
  · exact hrefs
  · exact fun _ _ _ hatt => hatt

private theorem Inv.wsInit (h : s.Inv) (sessionId : String) (now : ℚ) (uuid : String) :
    (s.wsInit sessionId now uuid).Inv := by
  have hrefs := h.refs.create now (some sessionId) none uuid
  unfold RunOwners.wsInit
  rcases RunRegistry.create_cases s.registry now (some sessionId) none uuid with
    ⟨e, reg, heq, hrecords, hsize, -⟩ | ⟨reg, key, heq, hrecords, hsize, -⟩
  · rw [heq] at hrefs ⊢
    exact h.setRegistry hsize hrefs fun r _ => by rw [hrecords]
  · rw [heq] at hrefs ⊢
    have hruns : ∀ r ≠ s.registry.size,
        ({ s with registry := reg }.setRun s.registry.size .created).runs r = s.runs r := by
      intro r hr
      simp [RunOwners.setRun, hr]
    apply h.created hrecords hsize hrefs
    · rfl
    · rfl
    · intro r hr
      dsimp only
      rw [hruns r (by omega)]
      exact (h.fresh r (by omega)).1
    · intro rt hrt
      apply (h.runtimes rt hrt).of_size
      change _ ≤ reg.size
      omega
    · exact .inl (by simp [RunOwners.setRun])
    · intro r hr hatt
      dsimp only
      unfold Attended
      rw [hruns r hr.ne]
      exact hatt

private theorem Inv.lt_of_runs (h : s.Inv) {state : RunTaskState} (hruns : s.runs r = state)
    (hstate : state ≠ .none) : r < s.registry.size := by
  by_contra hge
  exact hstate (hruns.symm.trans (h.fresh r (Nat.not_lt.mp hge)).1)

/-- The `finally` of the run task ends the record, or a resident runtime holds it. -/
theorem Inv.executeRunFinally (h : s.Inv) (hr : r < s.registry.size) (raised : Bool) (now : ℚ) :
    (s.executeRunFinally r raised now).Inv ∧ ((s.executeRunFinally r raised now).live r →
        ∃ rt ∈ (s.executeRunFinally r raised now).runtimes, rt.Holds r) := by
  have hst : (if raised then RunStatus.error
      else if (s.registry.records r).cancelled then .aborted else .completed) ≠ .running := by
    split
    · decide
    · split <;> decide
  unfold RunOwners.executeRunFinally
  split
  · rename_i hcond
    have hl : s.live r := (Bool.and_eq_true_iff.mp hcond).1
    refine ⟨h.endRun hr hl hst now, fun hlive => ?_⟩
    rw [live, endRun_status hl] at hlive
    exact absurd (of_decide_eq_true hlive) hst
  · rename_i hcond
    refine ⟨h, fun hlive => ?_⟩
    have howned : s.ownsNativeRecord r = true := by simpa [hlive] using hcond
    obtain ⟨rt, hrt, hrec⟩ := List.any_eq_true.mp howned
    have hrecord : rt.record = some r := by simpa using (Bool.and_eq_true_iff.mp hrec).2
    refine ⟨rt, hrt, .inl ⟨hrecord, fun hclosed => ?_⟩⟩
    have hnone := (h.runtimes rt hrt).closing (by rw [hclosed]; exact CloseState.noConfusion)
    rw [hrecord] at hnone
    cases hnone

private theorem Inv.executeRunEnds (h : s.Inv) (hruns : s.runs r = .body) {exit : RunExit} {now : ℚ}
    (hminded : s.Minded (.executeRunEnds r exit now)) : (s.executeRunEnds r exit now).Inv := by
  have hr := h.lt_of_runs hruns RunTaskState.noConfusion
  have hfinally : ∀ t : RunOwners, t.Inv → t.registry.size = s.registry.size → ∀ raised,
      ((t.executeRunFinally r raised now).setRun r .ended).Inv := by
    intro t ht hsize raised
    have hrt : r < t.registry.size := hsize ▸ hr
    obtain ⟨hinv, howned⟩ := ht.executeRunFinally hrt raised now
    refine hinv.setRun ?_ (.inr (.inr howned))
    unfold RunOwners.executeRunFinally
    split
    · rw [endRun_size]
      exact hrt
    · exact hrt
  cases exit with
  | returns => exact hfinally s h rfl false
  | escapes => exact hfinally s h rfl false
  | raises size =>
    exact hfinally _ (h.recordEvent hr (by decide) (.inr hminded) _) rfl true
  | cancelled =>
    exact hfinally _ (h.endRun hr hminded (by decide) now) (endRun_size s r _ now) false

private theorem Inv.closeBegins (h : s.Inv) (hi : s.runtimes[i]? = some rt) (hclose : rt.close = .unclosed) :
    (s.closeBegins i rt).Inv := by
  have hwf := h.runtimes rt (List.mem_of_getElem? hi)
  have hset : ∀ t : RunOwners, t.Inv → t.runtimes = s.runtimes → t.registry.size = s.registry.size →
      (t.setRuntime i { rt with
        active := false, record := none
        close := .closing (if rt.active then rt.record else none) }).Inv := by
    intro t ht hruntimes hsize
    apply ht.setRuntime (by rw [hruntimes]; exact hi)
    · constructor
      · intro r hr
        cases hr
      · intro r hr
        rw [hsize]
        apply hwf.recordLt r
        by_cases hactive : rt.active
        · simpa [hactive] using hr
        · simp [hactive] at hr
      · rfl
      · exact fun _ => rfl
    · intro r _ _ hholds
      refine .inl (.inr ?_)
      rcases hholds with ⟨hrecord, -⟩ | hclosing
      · have hactive : rt.active = true := by rw [hwf.active, hrecord]; rfl
        rw [hactive, if_pos rfl, hrecord]
      · rw [hclose] at hclosing
        cases hclosing
  unfold RunOwners.closeBegins
  cases hrecord : rt.record with
  | none =>
    rw [hrecord] at hset
    exact hset s h rfl rfl
  | some r =>
    rw [hrecord] at hset
    refine hset _ (h.setRegistry rfl h.refs fun r' _ => ?_) rfl rfl
    by_cases hrr : r' = r
    · simp [RunRegistry.setCancelled, hrr]
    · simp [RunRegistry.setCancelled, hrr]

private theorem Inv.closeEnds (h : s.Inv) (hi : s.runtimes[i]? = some rt) {captured : Option RecordId}
    (hclose : rt.close = .closing captured) (now : ℚ) : (s.closeEnds i rt captured now).Inv := by
  have hwf := h.runtimes rt (List.mem_of_getElem? hi)
  have hrecord : rt.record = none := hwf.closing (by rw [hclose]; exact CloseState.noConfusion)
  have hset : ∀ t : RunOwners, t.Inv → t.runtimes = s.runtimes → t.registry.size = s.registry.size →
      (∀ r ∈ captured, t.live r = false) → (t.setRuntime i { rt with close := .closed }).Inv := by
    intro t ht hruntimes hsize hended
    apply ht.setRuntime (by rw [hruntimes]; exact hi)
    · constructor
      · exact fun r hr => hsize ▸ hwf.recordLt r hr
      · intro r hr
        cases hr
      · exact hwf.active
      · exact fun _ => hrecord
    · intro r _ hl hholds
      rcases hholds with ⟨hrec, -⟩ | hclosing
      · rw [hrecord] at hrec
        cases hrec
      · rw [hclose] at hclosing
        cases hclosing
        rw [hended r rfl] at hl
        cases hl
  unfold RunOwners.closeEnds
  cases captured with
  | none => exact hset s h rfl rfl fun r hr => by cases hr
  | some r =>
    dsimp only
    have hlive : (s.setRuntime i { rt with close := .closed }).live r = s.live r := rfl
    rw [hlive]
    split
    · rename_i hl
      have hr := hwf.capturedLt r hclose
      refine hset _ (h.endRun hr hl (by decide) now) rfl (endRun_size s r _ now) ?_
      intro r' hr'
      cases hr'
      rw [live, endRun_status hl]
      rfl
    · rename_i hl
      refine hset s h rfl rfl fun r' hr' => ?_
      cases hr'
      simpa using hl

private theorem Inv.noteFrame (h : s.Inv) (hi : s.runtimes[i]? = some rt) (hrecord : rt.record = some r)
    {frame : PeerFrame} (hlabelled : frame.labelled)
    (hl : frame.event = none ∧ frame.result = none ∨ s.live r) (now : ℚ) :
    (s.noteFrame i r frame now).Inv := by
  have hwf := h.runtimes rt (List.mem_of_getElem? hi)
  have hr := hwf.recordLt r hrecord
  -- the result ends the record, and the runtime lets go of it
  have hresult : ∀ t : RunOwners, t.Inv → t.runtimes = s.runtimes →
      t.registry.size = s.registry.size → t.live r → ∀ st : RunStatus, st ≠ .running →
      ((t.setRuntime i { rt with active := false, record := none }).endRun r st now).Inv := by
    intro t ht hruntimes hsize htl st hst
    have hended := ht.endRun (hsize ▸ hr) htl hst now
    change ((t.endRun r st now).setRuntime i { rt with active := false, record := none }).Inv
    apply hended.setRuntime (by change t.runtimes[i]? = some rt; rw [hruntimes]; exact hi)
    · constructor
      · intro r' hr'
        cases hr'
      · intro r' hr'
        rw [endRun_size, hsize]
        exact hwf.capturedLt r' hr'
      · rfl
      · exact fun _ => rfl
    · intro r' _ hl' hholds
      rcases hholds with ⟨hrec, -⟩ | hclosing
      · rw [hrecord] at hrec
        cases hrec
        rw [live, endRun_status htl] at hl'
        exact absurd (of_decide_eq_true hl') hst
      · exact .inl (.inr hclosing)
  unfold RunOwners.noteFrame
  cases hevent : frame.event with
  | none =>
    cases hres : frame.result with
    | none => exact h
    | some isError =>
      have hlive : s.live r := by
        rcases hl with ⟨-, hnone⟩ | hl
        · rw [hres] at hnone
          cases hnone
        · exact hl
      simp only [hi]
      apply hresult s h rfl rfl hlive
      split <;> decide
  | some event =>
    have hlive : s.live r := by
      rcases hl with ⟨hnone, -⟩ | hl
      · rw [hevent] at hnone
        cases hnone
      · exact hl
    have hne : event.1 ≠ .runEnd := by simpa [PeerFrame.labelled, hevent] using hlabelled
    have hrecorded := h.recordEvent hr hne (.inr hlive) event.2
    have hruntimes : (s.recordEvent r event.1 event.2).runtimes = s.runtimes := rfl
    have hlive' : (s.recordEvent r event.1 event.2).live r := by
      rw [live, recordEvent_status]
      exact hlive
    cases hres : frame.result with
    | none => exact hrecorded
    | some isError =>
      simp only [hruntimes, hi]
      apply hresult _ hrecorded rfl rfl hlive'
      split <;> decide

private theorem claimRecord_cases (hrefs : s.registry.SessionRefs) (rt : PeerRuntime) (now : ℚ) (uuid : String) :
    ∃ reg : RunRegistry Payload, ∃ found, s.claimRecord rt now uuid = ({ s with registry := reg }, found) ∧
      reg.SessionRefs ∧
      (reg.records = s.registry.records ∧ reg.size = s.registry.size ∧
        (∀ r ∈ found, r < reg.size ∧ reg.liveRef r) ∨
      ∃ key, reg.records = Function.update s.registry.records s.registry.size
          { runId := key, sessionId := rt.sessionId } ∧
        reg.size = s.registry.size + 1 ∧ found = some s.registry.size) := by
  have hcreated := hrefs.create now rt.sessionId none uuid
  unfold claimRecord
  rcases RunRegistry.create_cases s.registry now rt.sessionId none uuid with
    ⟨e, reg, heq, hrecords, hsize, -⟩ | ⟨reg, key, heq, hrecords, hsize, -⟩
  · rw [heq] at hcreated ⊢
    refine ⟨reg, _, rfl, hcreated, .inl ⟨hrecords, hsize, fun r hr => ?_⟩⟩
    split at hr
    · exact RunRegistry.liveForSession_live hcreated hr
    · cases hr
  · rw [heq] at hcreated ⊢
    exact ⟨reg, _, rfl, hcreated, .inr ⟨key, hrecords, hsize, rfl⟩⟩

private theorem Inv.takes (h : s.Inv) (hi : s.runtimes[i]? = some rt) (hrecord : rt.record = none)
    (hunclosed : rt.close = .unclosed) (hrefs : reg.SessionRefs)
    (hcases : (reg.records = s.registry.records ∧ reg.size = s.registry.size ∧ r < reg.size ∧ reg.liveRef r) ∨
      ∃ key, reg.records = Function.update s.registry.records s.registry.size
          { runId := key, sessionId := rt.sessionId } ∧
        reg.size = s.registry.size + 1 ∧ r = s.registry.size) :
    ({ s with registry := reg }.setRuntime i { rt with active := true, record := some r }).Inv ∧
      ({ s with registry := reg }.setRuntime i { rt with active := true, record := some r }).live r := by
  have hlt : i < s.runtimes.length := (List.getElem?_eq_some_iff.mp hi).1
  have hnothing : ∀ r', ¬ rt.Holds r' := by
    intro r' hholds
    rcases hholds with ⟨hrec, -⟩ | hclosing
    · rw [hrecord] at hrec
      cases hrec
    · rw [hunclosed] at hclosing
      cases hclosing
  have hnew : ∀ t : RunOwners, r < t.registry.size →
      t.WellFormed { rt with active := true, record := some r } := by
    intro t hr
    constructor
    · intro r' hr'
      cases hr'
      exact hr
    · intro r' hr'
      rw [hunclosed] at hr'
      cases hr'
    · rfl
    · exact fun hne => absurd hunclosed hne
  rcases hcases with ⟨hrecords, hsize, hr, hlive⟩ | ⟨key, hrecords, hsize, rfl⟩
  · have hset : { s with registry := reg }.Inv := h.setRegistry hsize hrefs fun r' _ => by rw [hrecords]
    exact ⟨hset.setRuntime hi (hnew _ hr) fun r' _ _ hholds => absurd hholds (hnothing r'), hlive⟩
  · have hlive : reg.liveRef s.registry.size := by
      rw [RunRegistry.liveRef, hrecords, Function.update_self]
      rfl
    refine ⟨?_, hlive⟩
    apply h.created hrecords hsize hrefs
    · rfl
    · rfl
    · exact fun r' hr' => (h.fresh r' (by omega)).1
    · intro rt' hrt'
      rcases List.mem_or_eq_of_mem_set hrt' with hrt' | rfl
      · apply (h.runtimes rt' hrt').of_size
        change _ ≤ reg.size
        omega
      · apply hnew
        change _ < reg.size
        omega
    · refine .inr (.inr ⟨_, List.mem_set hlt _, .inl ⟨rfl, ?_⟩⟩)
      rw [hunclosed]
      exact CloseState.noConfusion
    · intro r' _ hatt
      rcases hatt with hruns | hruns | ⟨rt', hrt', hholds⟩
      · exact .inl hruns
      · exact .inr (.inl hruns)
      · obtain ⟨j, hj⟩ := List.mem_iff_getElem?.mp hrt'
        have hji : j ≠ i := by
          rintro rfl
          rw [hi] at hj
          cases hj
          exact hnothing r' hholds
        have hmem : (s.runtimes.set i { rt with active := true, record := some s.registry.size })[j]? =
            some rt' := by
          rw [List.getElem?_set_ne (Ne.symm hji)]
          exact hj
        exact .inr (.inr ⟨rt', List.mem_of_getElem? hmem, hholds⟩)

private theorem Inv.observeUnsolicited (h : s.Inv) (hi : s.runtimes[i]? = some rt) {frame : PeerFrame}
    (hlabelled : frame.labelled) {admission : Bool} {now : ℚ} {uuid : String}
    (hminded : s.Minded (.peerFrame i frame admission now uuid)) :
    (s.observeUnsolicited i rt frame admission now uuid).Inv := by
  have hwf := h.runtimes rt (List.mem_of_getElem? hi)
  have hlt : i < s.runtimes.length := (List.getElem?_eq_some_iff.mp hi).1
  have hcond := hminded rt hi
  unfold RunOwners.observeUnsolicited
  cases hactive : rt.active with
  | true =>
    rw [hactive, if_pos rfl] at hcond
    rw [if_pos rfl]
    cases hrecord : rt.record with
    | none => exact h
    | some r => exact h.noteFrame hi hrecord hlabelled (hcond r hrecord) now
  | false =>
    rw [hactive, if_neg Bool.false_ne_true] at hcond
    rw [if_neg Bool.false_ne_true]
    have hrecord : rt.record = none := by
      have hsome := hwf.active
      rw [hactive] at hsome
      simpa using hsome.symm
    cases hpeer : frame.peer with
    | false => exact h
    | true =>
      rw [if_pos rfl]
      unfold RunOwners.startPeerTurn
      cases admission with
      | false => exact h
      | true =>
        have hunclosed := hcond hpeer rfl
        obtain ⟨reg, found, heq, hrefs, hcases⟩ := claimRecord_cases h.refs rt now uuid
        rw [if_pos rfl, heq]
        cases found with
        | none =>
          rcases hcases with ⟨hrecords, hsize, -⟩ | ⟨key, -, -, hfound⟩
          · exact h.setRegistry hsize hrefs fun r _ => by rw [hrecords]
          · cases hfound
        | some r =>
          have hcases' : (reg.records = s.registry.records ∧ reg.size = s.registry.size ∧
                r < reg.size ∧ reg.liveRef r) ∨
              ∃ key, reg.records = Function.update s.registry.records s.registry.size
                  { runId := key, sessionId := rt.sessionId } ∧
                reg.size = s.registry.size + 1 ∧ r = s.registry.size := by
            grind
          obtain ⟨hinv, hlive⟩ := h.takes hi hrecord hunclosed hrefs hcases'
          exact hinv.noteFrame (List.getElem?_set_self hlt) rfl hlabelled (.inr hlive) now

private theorem Inv.step (h : s.Inv) {e : OwnerEvent} (hminded : s.Minded e) (hs : s.step e = some s') : s'.Inv := by
  cases e with
  | wsInit sessionId now uuid =>
    cases hs
    exact h.wsInit sessionId now uuid
  | runBegins r =>
    obtain ⟨hruns, heq⟩ := Option.ite_none_right_eq_some.mp hs
    cases heq
    exact h.setRun (h.lt_of_runs hruns RunTaskState.noConfusion) (.inr (.inl rfl))
  | emits r eventType data =>
    obtain ⟨⟨hruns, hne⟩, heq⟩ := Option.ite_none_right_eq_some.mp hs
    cases heq
    exact h.recordEvent (h.lt_of_runs hruns RunTaskState.noConfusion) hne hminded data
  | executeRunEnds r exit now =>
    obtain ⟨hruns, heq⟩ := Option.ite_none_right_eq_some.mp hs
    cases heq
    exact h.executeRunEnds hruns hminded
  | cancelledUnstarted r =>
    obtain ⟨hruns, heq⟩ := Option.ite_none_right_eq_some.mp hs
    cases heq
    exact h.setRun (h.lt_of_runs hruns RunTaskState.noConfusion) (.inr (.inr hminded))
  | readerRecords r data =>
    obtain ⟨hr, heq⟩ := Option.ite_none_right_eq_some.mp hs
    cases heq
    exact h.recordEvent hr (by decide) (.inr hminded) data
  | registryCalled op =>
    obtain ⟨⟨henabled, hquiet⟩, heq⟩ := Option.ite_none_right_eq_some.mp hs
    cases heq
    obtain ⟨hsize, hstatus⟩ := quiet_apply hquiet s.registry
    exact h.setRegistry hsize (quiet_refs hquiet henabled h.refs) hstatus
  | runtimeAdded sessionId =>
    cases hs
    apply h.of_quiet
    · rfl
    · exact fun _ _ => rfl
    · rfl
    · exact fun r hr => (h.fresh r hr).1
    · intro rt hrt
      rcases List.mem_append.mp hrt with hrt | hrt
      · exact (h.runtimes rt hrt).of_size (Nat.le_refl _)
      · rw [List.mem_singleton.mp hrt]
        exact ⟨(fun r hr => by cases hr), (fun r hr => by cases hr), rfl, fun _ => rfl⟩
    · exact h.refs
    · intro r _ _ hatt
      rcases hatt with hruns | hruns | ⟨rt, hrt, hholds⟩
      · exact .inl hruns
      · exact .inr (.inl hruns)
      · exact .inr (.inr ⟨rt, List.mem_append_left _ hrt, hholds⟩)
  | residentSet i resident =>
    obtain ⟨rt, hi, heq⟩ := Option.map_eq_some_iff.mp hs
    rw [← heq]
    have hwf := h.runtimes rt (List.mem_of_getElem? hi)
    exact h.setRuntime hi ⟨hwf.recordLt, hwf.capturedLt, hwf.active, hwf.closing⟩
      fun r _ _ hholds => .inl hholds
  | sessionSet i sessionId =>
    obtain ⟨rt, hi, heq⟩ := Option.map_eq_some_iff.mp hs
    rw [← heq]
    have hwf := h.runtimes rt (List.mem_of_getElem? hi)
    exact h.setRuntime hi ⟨hwf.recordLt, hwf.capturedLt, hwf.active, hwf.closing⟩
      fun r _ _ hholds => .inl hholds
  | peerFrame i frame admission now uuid =>
    obtain ⟨rt, hi, heq⟩ := Option.bind_eq_some_iff.mp hs
    obtain ⟨⟨-, hlabelled⟩, heq⟩ := Option.ite_none_right_eq_some.mp heq
    cases heq
    exact h.observeUnsolicited hi hlabelled hminded
  | closeBegins i =>
    obtain ⟨rt, hi, heq⟩ := Option.bind_eq_some_iff.mp hs
    obtain ⟨hclose, heq⟩ := Option.ite_none_right_eq_some.mp heq
    cases heq
    exact h.closeBegins hi hclose
  | closeEnds i now =>
    obtain ⟨rt, hi, heq⟩ := Option.bind_eq_some_iff.mp hs
    split at heq
    · rename_i captured hclose
      cases heq
      exact h.closeEnds hi hclose now
    · cases heq
    · cases heq
  | closeCut i =>
    obtain ⟨rt, hi, heq⟩ := Option.bind_eq_some_iff.mp hs
    split at heq
    · rename_i captured hclose
      cases heq
      have hwf := h.runtimes rt (List.mem_of_getElem? hi)
      have hrecord : rt.record = none := hwf.closing (by rw [hclose]; exact CloseState.noConfusion)
      apply h.setRuntime hi
      · exact ⟨hwf.recordLt, (fun r hr => by cases hr), hwf.active, fun _ => hrecord⟩
      · intro r hr hl hholds
        rcases hholds with ⟨hrec, -⟩ | hclosing
        · rw [hrecord] at hrec
          cases hrec
        · exact .inr (hminded rt hi r hr hclosing hl)
    · cases heq
    · cases heq

/-- In a run whose sections are all minded, every record ends once. -/
theorem endsOnce_of_minded {es : List OwnerEvent} (h : RunMeets RunOwners.step Minded init es)
    (hr : run RunOwners.step init es = some s) : s.EndsOnce := by
  have hinv : s.Inv := run_invariant (fun _ _ _ hi hc hs => Inv.step hi hc hs) inv_init h hr
  exact fun r hlt => ⟨hinv.ends r hlt, hinv.attended r hlt⟩

/-- A peer turn adopts the record of a run task that is still to end. -/
def adoptedRun : List OwnerEvent :=
  [.wsInit "s" 0 "u", .runtimeAdded (some "s"), .runBegins 0,
    .emits 0 (.other "assistant") (.object 1 none), .peerFrame 0 { peer := true } true 1 "v"]

def peerResult : PeerFrame :=
  { event := some (.other "result", .object 1 none), result := some false }

/-- The run task leaves the record to the runtime. -/
theorem endsOnce_handedOver : ∃ s, run RunOwners.step init
        (adoptedRun ++ [.executeRunEnds 0 .returns 2, .peerFrame 0 peerResult true 3 "w"]) = some s ∧
      s.EndsOnce ∧ (s.log 0).map Prod.fst = [.other "assistant", .other "result", .runEnd] := by
  obtain ⟨s, hr, hlog⟩ := exists_run_of_map RunOwners.step init
    (adoptedRun ++ [.executeRunEnds 0 .returns 2, .peerFrame 0 peerResult true 3 "w"])
    (fun s => (s.log 0).map Prod.fst = [.other "assistant", .other "result", .runEnd])
    (by decide)
  exact ⟨s, hr, endsOnce_of_minded (by decide) hr, by simpa using hlog⟩

/-- The run task is cancelled after the peer turn has ended the record, and ends it again. -/
theorem cancelledAfterPeer_not_endsOnce : ∃ s, run RunOwners.step init
        (adoptedRun ++ [.peerFrame 0 peerResult true 2 "w", .executeRunEnds 0 .cancelled 3]) = some s ∧
      ¬ s.EndsOnce := by
  obtain ⟨s, hr, hs⟩ := exists_run_of_map RunOwners.step init
    (adoptedRun ++ [.peerFrame 0 peerResult true 2 "w", .executeRunEnds 0 .cancelled 3])
    (fun s => decide (0 < s.registry.size) && !s.live 0 &&
      decide ((s.log 0).map Prod.fst = [.other "assistant", .other "result", .runEnd, .runEnd]))
    (by decide)
  simp only [Bool.and_eq_true, decide_eq_true_eq, Bool.not_eq_true'] at hs
  obtain ⟨⟨hlt, hlive⟩, hlog⟩ := hs
  refine ⟨s, hr, fun hends => ?_⟩
  obtain ⟨front, heq, hfront⟩ := (hends 0 hlt).1.terminal hlive
  have hmem : EventType.runEnd ∈ front.map Prod.fst := by
    rw [heq, List.map_append, List.map_singleton] at hlog
    have hinit : front.map Prod.fst ++ [EventType.runEnd] =
        [.other "assistant", .other "result", .runEnd] ++ [.runEnd] := hlog
    rw [List.append_cancel_right hinit]
    decide
  obtain ⟨e, he, hend⟩ := List.mem_map.mp hmem
  exact hfront e he hend

end RunOwners

end PrivaCloud.AgentRunner
