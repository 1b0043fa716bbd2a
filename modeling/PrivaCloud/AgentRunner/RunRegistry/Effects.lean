import PrivaCloud.AgentRunner.RunRegistry.Consistency

/-!
# What the registry's operations do to a record

Which calls leave the status of a record and its end alone, and that the slots count the live records
through every call, whatever the indexes hold.
-/

namespace PrivaCloud.AgentRunner

open Framework

namespace RunRegistry

variable {reg reg' : RunRegistry Payload} {r record : RecordId}

/-- The record goes on as it was: its status stays, and no end is recorded. -/
structure GoesOn (reg reg' : RunRegistry Payload) (r : RecordId) : Prop where
  status : (reg'.records r).status = (reg.records r).status
  unended : (reg.records r).Unended → (reg'.records r).Unended

theorem GoesOn.of_eq (h : reg'.records r = reg.records r) : GoesOn reg reg' r where
  status := by rw [h]
  unended hu := by rwa [h]

theorem GoesOn.live (h : GoesOn reg reg' r) : reg'.liveRef r = reg.liveRef r := by
  simp only [liveRef, RunRecord.live, h.status]

theorem goesOn_recordEvent {t : EventType} {d : Payload} (ht : t ≠ .runEnd) :
    GoesOn reg (reg.recordEvent payloadCodec record t d) r := by
  by_cases hr : r = record
  · rw [hr]
    refine ⟨?_, fun hu => ?_⟩
    · simp [recordEvent]
    · simpa [recordEvent] using hu.recordEvent payloadCodec ht d
  · exact .of_eq (by simp [recordEvent, hr])

theorem create_cases (reg : RunRegistry Payload) (now : ℚ) (sessionId runId : Option String) (uuid : String) :
    (∃ e reg', reg.create now sessionId runId uuid = (reg', .error e) ∧ reg'.records = reg.records ∧
      reg'.size = reg.size ∧ reg'.activity = reg.activity) ∨
    ∃ reg' key, reg.create now sessionId runId uuid = (reg', .ok reg.size) ∧
      reg'.records = Function.update reg.records reg.size { runId := key, sessionId := sessionId } ∧
      reg'.size = reg.size + 1 ∧ reg'.activity = reg.activity + 1 := by
  unfold create
  dsimp only
  split
  · exact .inl ⟨_, _, rfl, rfl, rfl, rfl⟩
  · split
    · exact .inl ⟨_, _, rfl, rfl, rfl, rfl⟩
    · exact .inr ⟨_, _, rfl, rfl, rfl, rfl⟩

def Slots (reg : RunRegistry Payload) : Prop := reg.activity = reg.liveCount

theorem Slots.of_live (h : Slots reg) (hsize : reg'.size = reg.size)
    (hactivity : reg'.activity = reg.activity) (hlive : ∀ r, reg'.liveRef r = reg.liveRef r) :
    Slots reg' := by
  unfold Slots liveCount at h ⊢
  rw [hactivity, h, hsize]
  exact List.countP_congr fun r _ => by rw [hlive]

theorem Slots.create (h : Slots reg) (now : ℚ) (sessionId runId : Option String) (uuid : String) :
    Slots (reg.create now sessionId runId uuid).1 := by
  rcases create_cases reg now sessionId runId uuid with
    ⟨e, reg', heq, hrecords, hsize, hactivity⟩ | ⟨reg', key, heq, hrecords, hsize, hactivity⟩
  · rw [heq]
    exact h.of_live hsize hactivity fun r => by simp [liveRef, hrecords]
  · rw [heq]
    unfold Slots liveCount at h ⊢
    have hold : (List.range reg.size).countP reg'.liveRef = (List.range reg.size).countP reg.liveRef := by
      apply List.countP_congr
      intro r hr
      have hne : r ≠ reg.size := (List.mem_range.mp hr).ne
      simp [liveRef, hrecords, hne]
    have hnew : reg'.liveRef reg.size = true := by simp [liveRef, hrecords, RunRecord.live]
    rw [hactivity, h, hsize, List.range_succ, List.countP_append, hold]
    simp [hnew]

theorem finish_records_of_ne (hr : r ≠ record) (status : RunStatus) (endedAt now : ℚ) :
    (reg.finish record status endedAt now).records r = reg.records r := by
  unfold finish
  split
  · rfl
  · simp [settle, hr]

theorem finish_size (status : RunStatus) (endedAt now : ℚ) :
    (reg.finish record status endedAt now).size = reg.size := by
  unfold finish
  split <;> rfl

theorem Slots.finish (h : Slots reg) (hr : record < reg.size) {status : RunStatus}
    (hst : status ≠ .running) (endedAt now : ℚ) : Slots (reg.finish record status endedAt now) := by
  unfold RunRegistry.finish
  split
  · exact h
  · rename_i hrun
    have hlive : reg.liveRef record := by simpa [liveRef, RunRecord.live] using hrun
    have hcount := liveCount_settle endedAt hr hlive hst
    unfold Slots at h ⊢
    change reg.activity - 1 = (reg.settle record status endedAt).liveCount
    omega

theorem Slots.recordEvent (h : Slots reg) (t : EventType) (d : Payload) :
    Slots (reg.recordEvent payloadCodec record t d) := by
  refine h.of_live rfl rfl fun r => ?_
  by_cases hr : r = record
  · simp [hr, liveRef, RunRecord.live, RunRegistry.recordEvent]
  · simp [hr, liveRef, RunRegistry.recordEvent]

theorem GoesOn.of_fields (hstatus : (reg'.records r).status = (reg.records r).status)
    (hevents : (reg'.records r).events = (reg.records r).events)
    (hsizes : (reg'.records r).eventSizes = (reg.records r).eventSizes)
    (hbytes : (reg'.records r).eventBytes = (reg.records r).eventBytes) : GoesOn reg reg' r where
  status := hstatus
  unended hu :=
    { length := by rw [hsizes, hevents, hu.length]
      bytes := by rw [hbytes, hsizes, hu.bytes]
      events := by
        rw [hevents]
        exact hu.events }

theorem goesOn_update {f : RunRecord Payload} (hrecords : reg'.records = Function.update reg.records record f)
    (hstatus : f.status = (reg.records record).status)
    (hevents : f.events = (reg.records record).events)
    (hsizes : f.eventSizes = (reg.records record).eventSizes)
    (hbytes : f.eventBytes = (reg.records record).eventBytes) : GoesOn reg reg' r := by
  by_cases hr : r = record
  · rw [hr]
    exact .of_fields (by simp [hrecords, hstatus]) (by simp [hrecords, hevents])
      (by simp [hrecords, hsizes]) (by simp [hrecords, hbytes])
  · exact .of_eq (by simp [hrecords, hr])

theorem indexSession_cases (reg : RunRegistry Payload) (record : RecordId) (sessionId : String) :
    ((reg.indexSession record sessionId).1 = reg ∨
      (reg.indexSession record sessionId).1 = reg.rekeySession record sessionId) := by
  unfold indexSession
  split
  · exact .inl rfl
  · split
    · split
      · exact .inr rfl
      · exact .inl rfl
    · exact .inr rfl

theorem goesOn_rekeySession (sessionId : String) : GoesOn reg (reg.rekeySession record sessionId) r :=
  goesOn_update rfl rfl rfl rfl rfl

theorem get_records (now : ℚ) (sessionId runId : Option String) :
    (reg.get now sessionId runId).1 = reg.sweep now := by
  unfold get
  dsimp only
  split <;> rfl

/-- A call that neither ends the record nor records its end. -/
def Spares (r : RecordId) : RegistryOp Payload → Prop
  | .finish r' _ _ _ => r' ≠ r
  | .recordEvent r' t _ => t ≠ .runEnd ∨ r' ≠ r
  | .finishCancelled .. => False
  | .create .. | .indexRunId .. | .indexSession .. | .get .. | .sweep _ | .listActive _
  | .setCancelled _ => True

theorem goesOn_apply {op : RegistryOp Payload} (hr : r < reg.size) (hspares : Spares r op) :
    GoesOn reg (reg.apply payloadCodec op) r := by
  cases op with
  | create now sessionId runId uuid =>
    apply GoesOn.of_eq
    rcases create_cases reg now sessionId runId uuid with
      ⟨e, reg', heq, hrecords, -, -⟩ | ⟨reg', key, heq, hrecords, -, -⟩
    · rw [apply, heq, hrecords]
    · rw [apply, heq, hrecords, Function.update_of_ne hr.ne]
  | indexRunId r' runId =>
    apply GoesOn.of_eq
    unfold apply indexRunId
    dsimp only
    split <;> rfl
  | indexSession r' sessionId =>
    rw [apply]
    rcases indexSession_cases reg r' sessionId with heq | heq
    · rw [heq]
      exact .of_eq rfl
    · rw [heq]
      exact goesOn_rekeySession sessionId
  | finish r' status endedAt now =>
    exact .of_eq (finish_records_of_ne (Ne.symm hspares) status endedAt now)
  | get now sessionId runId => exact .of_eq (by rw [apply, get_records]; rfl)
  | sweep now => exact .of_eq rfl
  | listActive now => exact .of_eq rfl
  | finishCancelled endData endedAt now => exact hspares.elim
  | recordEvent r' t d =>
    rcases hspares with ht | hne
    · exact goesOn_recordEvent ht
    · exact .of_eq (by simp [apply, recordEvent, Ne.symm hne])
  | setCancelled r' => exact goesOn_update rfl rfl rfl rfl rfl

theorem size_le_apply {op : RegistryOp Payload}
    (hspares : ∀ endData endedAt now, op ≠ .finishCancelled endData endedAt now) :
    reg.size ≤ (reg.apply payloadCodec op).size := by
  cases op with
  | create now sessionId runId uuid =>
    rcases create_cases reg now sessionId runId uuid with
      ⟨e, reg', heq, -, hsize, -⟩ | ⟨reg', key, heq, -, hsize, -⟩
    · rw [apply, heq, hsize]
    · rw [apply, heq, hsize]
      exact Nat.le_succ _
  | indexRunId r' runId =>
    unfold apply indexRunId
    dsimp only
    split <;> rfl
  | indexSession r' sessionId =>
    rw [apply]
    rcases indexSession_cases reg r' sessionId with heq | heq
    · rw [heq]
    · rw [heq]
      exact Nat.le_refl _
  | finish r' status endedAt now => exact (finish_size status endedAt now).ge
  | get now sessionId runId =>
    rw [apply, get_records]
    exact Nat.le_refl _
  | finishCancelled endData endedAt now => exact absurd rfl (hspares endData endedAt now)
  | sweep | listActive | recordEvent | setCancelled => exact Nat.le_refl _

theorem Slots.apply (h : Slots reg) {op : RegistryOp Payload} (henabled : reg.Enabled op)
    (hspares : ∀ endData endedAt now, op ≠ .finishCancelled endData endedAt now) :
    Slots (reg.apply payloadCodec op) := by
  cases op with
  | create now sessionId runId uuid => exact h.create now sessionId runId uuid
  | indexRunId r' runId =>
    unfold RunRegistry.apply indexRunId
    dsimp only
    split
    · exact h
    · exact h
  | indexSession r' sessionId =>
    rw [RunRegistry.apply]
    rcases indexSession_cases reg r' sessionId with heq | heq
    · rw [heq]
      exact h
    · rw [heq]
      exact h.of_live rfl rfl fun r => (goesOn_rekeySession sessionId).live
  | finish r' status endedAt now => exact h.finish henabled.1 henabled.2 endedAt now
  | get now sessionId runId =>
    rw [RunRegistry.apply, get_records]
    exact h.of_live rfl rfl fun _ => rfl
  | sweep now => exact h.of_live rfl rfl fun _ => rfl
  | listActive now => exact h.of_live rfl rfl fun _ => rfl
  | finishCancelled endData endedAt now => exact absurd rfl (hspares endData endedAt now)
  | recordEvent r' t d => exact h.recordEvent t d
  | setCancelled r' =>
    refine h.of_live rfl rfl fun r => GoesOn.live ?_
    exact goesOn_update rfl rfl rfl rfl rfl

/-- `finish` of a live record writes its status and nothing that the buffer holds. -/
theorem finish_record (hlive : reg.liveRef record) (status : RunStatus) (endedAt now : ℚ) :
    ((reg.finish record status endedAt now).records record).status = status ∧ ((reg.records record).Unended →
        ((reg.finish record status endedAt now).records record).Unended) := by
  have hrun : (reg.records record).status = .running := by
    simpa [liveRef, RunRecord.live] using hlive
  have heq : (reg.finish record status endedAt now).records record =
      { reg.records record with status := status, endedAt := some endedAt } := by
    simp [finish, hrun, settle]
  rw [heq]
  exact ⟨rfl, fun hu => ⟨⟨hu.length, hu.bytes⟩, hu.events⟩⟩

/-- The session index refers to records that exist. -/
def SessionRefs (reg : RunRegistry Payload) : Prop :=
  ∀ k r, reg.bySessionId.lookup k = some r → r < reg.size

theorem SessionRefs.sweep (h : SessionRefs reg) (now : ℚ) : SessionRefs (reg.sweep now) :=
  fun k r hk => h k r (sweep_bySessionId.mp hk).1

theorem SessionRefs.create (h : SessionRefs reg) (now : ℚ) (sessionId runId : Option String)
    (uuid : String) : SessionRefs (reg.create now sessionId runId uuid).1 := by
  have hswept := h.sweep now
  unfold RunRegistry.create
  dsimp only
  split
  · exact hswept
  · split
    · exact hswept
    · intro k r hk
      unfold insertRecord at hk ⊢
      dsimp only at hk ⊢
      split at hk
      · exact (hswept k r hk).trans (Nat.lt_succ_self _)
      · rename_i key _
        by_cases hkey : k = key
        · rw [hkey] at hk
          cases (AList.lookup_insert _).symm.trans hk
          exact Nat.lt_succ_self _
        · exact (hswept k r ((AList.lookup_insert_ne hkey).symm.trans hk)).trans (Nat.lt_succ_self _)

theorem SessionRefs.finish (h : SessionRefs reg) (status : RunStatus) (endedAt now : ℚ) :
    SessionRefs (reg.finish record status endedAt now) := by
  unfold RunRegistry.finish
  split
  · exact h
  · have hsettled : SessionRefs (reg.settle record status endedAt) := h
    exact hsettled.sweep now

theorem SessionRefs.rekeySession (h : SessionRefs reg) (hr : record < reg.size) (sessionId : String) :
    SessionRefs (reg.rekeySession record sessionId) := by
  intro k r hk
  unfold RunRegistry.rekeySession at hk ⊢
  dsimp only at hk ⊢
  by_cases hkey : k = sessionId
  · rw [hkey] at hk
    cases (AList.lookup_insert _).symm.trans hk
    exact hr
  · rw [AList.lookup_insert_ne hkey] at hk
    split at hk
    · exact h k r hk
    · split at hk
      · exact h k r hk
      · rename_i old _ _
        by_cases hold : k = old
        · rw [hold, AList.lookup_erase] at hk
          cases hk
        · rw [AList.lookup_erase_ne hold] at hk
          exact h k r hk

theorem liveForSession_live {now : ℚ} {sessionId : String} (h : SessionRefs reg)
    (hfound : reg.liveForSession now sessionId = some r) : r < reg.size ∧ reg.liveRef r := by
  unfold liveForSession at hfound
  split at hfound
  · cases hfound
  · rename_i r' hget
    split at hfound <;> cases hfound
    rename_i hlive
    refine ⟨?_, hlive⟩
    unfold get at hget
    dsimp only at hget
    simp only [truthy_none, Option.bind_none] at hget
    obtain ⟨k, -, hk⟩ := Option.bind_eq_some_iff.mp hget
    exact h.sweep now k _ hk

/-- Records are not taken away, and keep their run ids. -/
structure Persists (reg reg' : RunRegistry Payload) : Prop where
  size : reg.size ≤ reg'.size
  runId : ∀ r < reg.size, (reg'.records r).runId = (reg.records r).runId

theorem Persists.refl (reg : RunRegistry Payload) : Persists reg reg := ⟨Nat.le_refl _, fun _ _ => rfl⟩

theorem Persists.of_records (hsize : reg'.size = reg.size)
    (hrunId : ∀ r, (reg'.records r).runId = (reg.records r).runId) : Persists reg reg' :=
  ⟨hsize.ge, fun r _ => hrunId r⟩

theorem Persists.trans {reg'' : RunRegistry Payload} (h : Persists reg reg') (h' : Persists reg' reg'') :
    Persists reg reg'' where
  size := h.size.trans h'.size
  runId r hr := (h'.runId r (lt_of_lt_of_le hr h.size)).trans (h.runId r hr)

theorem runId_update {f : RunRecord Payload} (hf : f.runId = (reg.records record).runId) (r : RecordId) :
    (Function.update reg.records record f r).runId = (reg.records r).runId := by
  by_cases hr : r = record
  · rw [hr, Function.update_self]
    exact hf
  · rw [Function.update_of_ne hr]

theorem persists_finish (status : RunStatus) (endedAt now : ℚ) :
    Persists reg (reg.finish record status endedAt now) := by
  unfold finish
  split
  · exact .refl reg
  · exact .of_records rfl (runId_update rfl)

theorem persists_recordEvent (t : EventType) (d : Payload) : Persists reg (reg.recordEvent payloadCodec record t d) :=
  .of_records rfl (runId_update (RunRecord.recordEvent_runId _ _ t d))

theorem persists_create (now : ℚ) (sessionId runId : Option String) (uuid : String) :
    Persists reg (reg.create now sessionId runId uuid).1 := by
  rcases create_cases reg now sessionId runId uuid with
    ⟨e, reg', heq, hrecords, hsize, -⟩ | ⟨reg', key, heq, hrecords, hsize, -⟩
  · rw [heq]
    exact .of_records hsize fun r => by rw [hrecords]
  · rw [heq]
    refine ⟨hsize ▸ Nat.le_succ _, ?_⟩
    intro r hr
    rw [hrecords, Function.update_of_ne hr.ne]

theorem persists_finishCancelled (endData : RunStatus → Payload) (endedAt now : ℚ) :
    Persists reg (reg.finishCancelled payloadCodec endData endedAt now) := by
  unfold finishCancelled
  generalize reg.indexed = rs
  induction rs generalizing reg with
  | nil => exact .refl reg
  | cons r rs ih =>
    have hturn : Persists reg (reg.finishIfCancelled payloadCodec endData endedAt now r) := by
      unfold finishIfCancelled
      split
      · exact (persists_finish .aborted endedAt now).trans (persists_recordEvent _ _)
      · exact .refl reg
    exact hturn.trans ih

theorem persists_apply (op : RegistryOp Payload) : Persists reg (reg.apply payloadCodec op) := by
  cases op with
  | create now sessionId runId uuid => exact persists_create now sessionId runId uuid
  | indexRunId r' runId =>
    unfold apply indexRunId
    dsimp only
    split
    · exact .of_records rfl fun _ => rfl
    · exact .refl reg
  | indexSession r' sessionId =>
    rw [apply]
    rcases indexSession_cases reg r' sessionId with heq | heq
    · rw [heq]
      exact .refl reg
    · rw [heq]
      exact .of_records rfl (runId_update rfl)
  | finish r' status endedAt now => exact persists_finish status endedAt now
  | get now sessionId runId =>
    rw [apply, get_records]
    exact .of_records rfl fun _ => rfl
  | finishCancelled endData endedAt now => exact persists_finishCancelled endData endedAt now
  | recordEvent r' t d => exact persists_recordEvent t d
  | sweep now => exact .of_records rfl fun _ => rfl
  | listActive now => exact .of_records rfl fun _ => rfl
  | setCancelled r' => exact .of_records rfl (runId_update rfl)

theorem get_runId {now : ℚ} {sessionId : Option String} {runId : String} (hne : runId ≠ "")
    (hkept : reg.byRunId.lookup runId = some record) (hfresh : record ∉ reg.stale now) :
    reg.get now sessionId (some runId) = (reg.sweep now, some record) := by
  have hfound : (reg.sweep now).byRunId.lookup runId = some record := sweep_byRunId.mpr ⟨hkept, hfresh⟩
  unfold get
  rw [truthy_some hne]
  simp only [Option.bind_some, hfound]

end RunRegistry

end PrivaCloud.AgentRunner
