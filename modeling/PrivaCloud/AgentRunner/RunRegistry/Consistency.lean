import Mathlib.Algebra.Order.BigOperators.Group.List
import Mathlib.Algebra.Order.Ring.Nat
import Mathlib.Data.List.Dedup
import PrivaCloud.AgentRunner.RunRegistry.Registry

/-!
# Consistency of the run registry

The indexes find every live record, a sweep drops terminal records only and bounds what it leaves, and the
activity slots count the live records, as long as the session key that `index_session` pops is not held by
another live record.
-/

namespace PrivaCloud.AgentRunner

open Framework

namespace RunRegistry

variable {Data : Type}

variable {r record : RecordId} {reg : RunRegistry Data}

private theorem mem_indexed :
    r ∈ reg.indexed ↔ (∃ k, reg.byRunId.lookup k = some r) ∨ ∃ k, reg.bySessionId.lookup k = some r := by
  simp [indexed, Dict.mem_values]

private theorem mem_terminal : r ∈ reg.terminal ↔ r ∈ reg.indexed ∧ (reg.records r).endedAt.isSome := by
  simp [terminal]

private theorem terminal_nodup (reg : RunRegistry Data) : reg.terminal.Nodup := by
  have h : (reg.indexed.filter fun r => (reg.records r).endedAt.isSome).Nodup :=
    (List.nodup_dedup _).filter _
  exact (List.perm_insertionSort _ _).nodup_iff.mpr h

variable {now : ℚ}

private theorem stale_ended (h : r ∈ reg.stale now) : (reg.records r).endedAt.isSome :=
  (mem_terminal.mp (List.mem_filter.mp h).1).2

private theorem retain_bounds (reg : RunRegistry Data) (rs : List RecordId) :
    (reg.retain rs).length ≤ maxTerminalRecords ∧ reg.bytesOf (reg.retain rs) ≤ maxTerminalBytes := by
  induction rs with
  | nil => simp [retain, bytesOf]
  | cons r rs ih =>
    rw [retain]
    split
    · exact ih
    · rename_i h
      rw [not_or, not_lt, not_lt] at h
      exact h

@[simp] theorem sweep_records (reg : RunRegistry Data) (now : ℚ) : (reg.sweep now).records = reg.records := rfl
@[simp] theorem sweep_size (reg : RunRegistry Data) (now : ℚ) : (reg.sweep now).size = reg.size := rfl
@[simp] theorem sweep_activity (reg : RunRegistry Data) (now : ℚ) :
    (reg.sweep now).activity = reg.activity := rfl

theorem sweep_byRunId {k : String} :
    (reg.sweep now).byRunId.lookup k = some r ↔ reg.byRunId.lookup k = some r ∧ r ∉ reg.stale now :=
  Dict.lookup_popValues

theorem sweep_bySessionId {k : String} :
    (reg.sweep now).bySessionId.lookup k = some r ↔ reg.bySessionId.lookup k = some r ∧ r ∉ reg.stale now :=
  Dict.lookup_popValues

private theorem sweep_terminal_subset (reg : RunRegistry Data) (now : ℚ) :
    (reg.sweep now).terminal ⊆ reg.retained now := by
  intro r hr
  obtain ⟨hi, he⟩ := mem_terminal.mp hr
  have hkept : r ∈ reg.indexed ∧ r ∉ reg.stale now := by
    rcases mem_indexed.mp hi with ⟨k, hk⟩ | ⟨k, hk⟩
    · have h := sweep_byRunId.mp hk
      exact ⟨mem_indexed.mpr (.inl ⟨k, h.1⟩), h.2⟩
    · have h := sweep_bySessionId.mp hk
      exact ⟨mem_indexed.mpr (.inr ⟨k, h.1⟩), h.2⟩
  by_contra hn
  exact hkept.2 (List.mem_filter.mpr ⟨mem_terminal.mpr ⟨hkept.1, he⟩, by simpa using hn⟩)

private theorem sweep_bounds (reg : RunRegistry Data) (now : ℚ) : (reg.sweep now).terminal.length ≤ maxTerminalRecords ∧
      (reg.sweep now).bytesOf (reg.sweep now).terminal ≤ maxTerminalBytes := by
  have hb : (reg.retained now).length ≤ maxTerminalRecords ∧
      reg.bytesOf (reg.retained now) ≤ maxTerminalBytes := retain_bounds reg _
  have hp : (reg.sweep now).terminal.Subperm (reg.retained now) :=
    List.subperm_of_subset (terminal_nodup _) (sweep_terminal_subset reg now)
  refine ⟨hp.length_le.trans hb.1, le_trans ?_ hb.2⟩
  obtain ⟨l, hperm, hsub⟩ := hp
  have hl : (reg.sweep now).bytesOf (reg.sweep now).terminal = reg.bytesOf l :=
    (hperm.map _).sum_eq.symm
  rw [hl]
  exact (hsub.map _).sum_le_sum (fun _ _ => Nat.zero_le _)

/-- Both indexes refer to records that exist and find every live one. -/
structure Indexed (reg : RunRegistry Data) : Prop where
  runRefs : ∀ k r, reg.byRunId.lookup k = some r → r < reg.size
  sessionRefs : ∀ k r, reg.bySessionId.lookup k = some r → r < reg.size
  ended : ∀ r < reg.size, reg.liveRef r → (reg.records r).endedAt = none
  named : ∀ r < reg.size, (reg.records r).runId ≠ ""
  byRun : ∀ r < reg.size, reg.liveRef r → reg.byRunId.lookup (reg.records r).runId = some r
  bySession : ∀ r < reg.size, reg.liveRef r → ∀ s, truthy (reg.records r).sessionId = some s →
    reg.bySessionId.lookup s = some r

def liveCount (reg : RunRegistry Data) : Nat := (List.range reg.size).countP reg.liveRef

structure Inv (reg : RunRegistry Data) : Prop extends Indexed reg where
  slots : reg.activity = reg.liveCount

private theorem inv_empty : Inv (empty : RunRegistry Data) where
  runRefs := by intro k r h; simp [empty] at h
  sessionRefs := by intro k r h; simp [empty] at h
  ended := by intro r h; simp [empty] at h
  named := by intro r h; simp [empty] at h
  byRun := by intro r h; simp [empty] at h
  bySession := by intro r h; simp [empty] at h
  slots := rfl

private theorem Indexed.live_not_stale (h : Indexed reg)
    (hr : r < reg.size) (hl : reg.liveRef r) (now : ℚ) : r ∉ reg.stale now := by
  intro hs
  have := stale_ended hs
  simp [h.ended r hr hl] at this

private theorem Inv.sweep (h : Inv reg) (now : ℚ) : Inv (reg.sweep now) where
  runRefs k r hk := h.runRefs k r (sweep_byRunId.mp hk).1
  sessionRefs k r hk := h.sessionRefs k r (sweep_bySessionId.mp hk).1
  ended := h.ended
  named := h.named
  byRun r hr hl := sweep_byRunId.mpr ⟨h.byRun r hr hl, h.toIndexed.live_not_stale hr hl now⟩
  bySession r hr hl s hs :=
    sweep_bySessionId.mpr ⟨h.bySession r hr hl s hs, h.toIndexed.live_not_stale hr hl now⟩
  slots := h.slots

private theorem liveAt_eq_none {index : Dict String RecordId}
    {key : Option String} (h : reg.liveAt index key = none) {k : String}
    (hk : truthy key = some k) (hr : index.lookup k = some r) : reg.liveRef r = false := by
  simp only [liveAt, hk, hr] at h
  split at h
  · cases h
  · rename_i hn
    simpa using hn

private theorem liveCount_congr {reg reg' : RunRegistry Data} (hs : reg'.size = reg.size)
    (hl : ∀ r < reg.size, reg'.liveRef r = reg.liveRef r) : reg'.liveCount = reg.liveCount := by
  unfold liveCount
  rw [hs]
  apply List.countP_congr
  intro r hr
  rw [hl r (List.mem_range.mp hr)]

section Insert

variable {reg : RunRegistry Data} {sessionId runId : Option String} {uuid : String}

private theorem insert_old (hr : r < reg.size) :
    (reg.insertRecord sessionId runId uuid).records r = reg.records r := by
  simp [insertRecord, Nat.ne_of_lt hr]

private theorem insert_new : (reg.insertRecord sessionId runId uuid).records reg.size =
    { runId := (truthy runId).getD uuid, sessionId := sessionId } := by
  simp [insertRecord]

/-- The two checks of `create` make sure that neither index entry it overwrites is live. -/
theorem Inv.insertRecord (h : Inv reg) (hu : uuid ≠ "") (hf : uuid ∉ reg.byRunId)
    (hrun : reg.liveAt reg.byRunId runId = none)
    (hses : reg.liveAt reg.bySessionId sessionId = none) :
    Inv (reg.insertRecord sessionId runId uuid) := by
  let key := (truthy runId).getD uuid
  let reg' := reg.insertRecord sessionId runId uuid
  have hsize : reg'.size = reg.size + 1 := rfl
  have hold {r} (hr : r < reg.size) : reg'.liveRef r = reg.liveRef r := by
    simp only [reg', liveRef, insert_old hr]
  have hrunOld {k r} (hk : reg'.byRunId.lookup k = some r) (hr : r ≠ reg.size) :
      reg.byRunId.lookup k = some r := by
    by_cases he : k = key
    · subst he
      simp only [reg', RunRegistry.insertRecord, key, AList.lookup_insert] at hk
      exact absurd (Option.some.inj hk).symm hr
    · simpa [reg', RunRegistry.insertRecord, key, AList.lookup_insert_ne he] using hk
  have hsesOld {k r} (hk : reg'.bySessionId.lookup k = some r) (hr : r ≠ reg.size) :
      reg.bySessionId.lookup k = some r := by
    cases ht : truthy sessionId with
    | none => simpa [reg', RunRegistry.insertRecord, ht] using hk
    | some s =>
      simp only [reg', RunRegistry.insertRecord, ht] at hk
      by_cases he : k = s
      · subst he
        rw [AList.lookup_insert] at hk
        exact absurd (Option.some.inj hk).symm hr
      · rwa [AList.lookup_insert_ne he] at hk
  -- a live record is not under the run id or the session id of the new one
  have hkeep {r} (hr : r < reg.size) (hl : reg.liveRef r) {k} (hk : reg.byRunId.lookup k = some r) :
      reg'.byRunId.lookup k = some r := by
    have hne : k ≠ key := by
      rintro rfl
      cases ht : truthy runId with
      | none =>
        rw [show key = uuid by simp [key, ht]] at hk
        exact hf (AList.lookup_isSome.mp (by simp [hk]))
      | some i =>
        rw [show key = i by simp [key, ht]] at hk
        simp [liveAt_eq_none hrun ht hk] at hl
    simpa [reg', RunRegistry.insertRecord, key, AList.lookup_insert_ne hne] using hk
  have hkeepS {r} (hr : r < reg.size) (hl : reg.liveRef r) {k}
      (hk : reg.bySessionId.lookup k = some r) : reg'.bySessionId.lookup k = some r := by
    cases ht : truthy sessionId with
    | none => simpa [reg', RunRegistry.insertRecord, ht] using hk
    | some s =>
      have hne : k ≠ s := by
        rintro rfl
        simp [liveAt_eq_none hses ht hk] at hl
      simpa [reg', RunRegistry.insertRecord, ht, AList.lookup_insert_ne hne] using hk
  have hlt {r} (hr : r < reg'.size) : r < reg.size ∨ r = reg.size := by
    rw [hsize] at hr; omega
  refine ⟨⟨?_, ?_, ?_, ?_, ?_, ?_⟩, ?_⟩
  · intro k r hk
    by_cases he : r = reg.size
    · rw [he]; exact Nat.lt_succ_self _
    · exact Nat.lt_succ_of_lt (h.runRefs k r (hrunOld hk he))
  · intro k r hk
    by_cases he : r = reg.size
    · rw [he]; exact Nat.lt_succ_self _
    · exact Nat.lt_succ_of_lt (h.sessionRefs k r (hsesOld hk he))
  · intro r hr hl
    rcases hlt hr with hr | rfl
    · rw [insert_old hr]
      exact h.ended r hr ((hold hr).symm.trans hl)
    · simp [insert_new]
  · intro r hr
    rcases hlt hr with hr | rfl
    · rw [insert_old hr]
      exact h.named r hr
    · rw [insert_new]
      cases ht : truthy runId with
      | none => simpa using hu
      | some i => simpa using truthy_ne_empty ht
  · intro r hr hl
    rcases hlt hr with hr | rfl
    · rw [insert_old hr]
      have hl := (hold hr).symm.trans hl
      exact hkeep hr hl (h.byRun r hr hl)
    · rw [insert_new]
      simp [RunRegistry.insertRecord]
  · intro r hr hl s hs
    rcases hlt hr with hr | rfl
    · rw [insert_old hr] at hs
      have hl := (hold hr).symm.trans hl
      exact hkeepS hr hl (h.bySession r hr hl s hs)
    · rw [insert_new] at hs
      simp only at hs
      simp [RunRegistry.insertRecord, hs]
  · have hn : reg'.liveRef reg.size = true := by
      simp only [reg', liveRef, insert_new, RunRecord.live, decide_true]
    have hc : (List.range reg.size).countP reg'.liveRef = reg.liveCount := by
      apply List.countP_congr
      intro r hr
      rw [hold (List.mem_range.mp hr)]
    change reg.activity + 1 = reg'.liveCount
    rw [liveCount, hsize, List.range_succ, List.countP_append, hc, h.slots]
    simp [hn]

end Insert

private theorem Inv.create (h : Inv reg) {sessionId runId : Option String} {uuid : String} (hu : uuid ≠ "")
    (hf : uuid ∉ reg.byRunId) : Inv (reg.create now sessionId runId uuid).1 := by
  have hs := h.sweep now
  have hf' : uuid ∉ (reg.sweep now).byRunId := by
    intro hm
    obtain ⟨r, hr⟩ := Option.isSome_iff_exists.mp (AList.lookup_isSome.mpr hm)
    exact hf (AList.lookup_isSome.mp (by simp [(sweep_byRunId.mp hr).1]))
  simp only [RunRegistry.create]
  split
  · exact hs
  · rename_i hrun
    split
    · exact hs
    · rename_i hses
      exact hs.insertRecord hu hf' hrun hses

private theorem Inv.congr (h : Inv reg) {records : RecordId → RunRecord Data}
    (hid : ∀ r, (records r).runId = (reg.records r).runId)
    (hses : ∀ r, (records r).sessionId = (reg.records r).sessionId)
    (hst : ∀ r, (records r).status = (reg.records r).status)
    (hend : ∀ r, (records r).endedAt = (reg.records r).endedAt) :
    Inv { reg with records := records } := by
  have hl (r : RecordId) : liveRef { reg with records := records } r = reg.liveRef r := by
    simp only [liveRef, RunRecord.live, hst]
  refine ⟨⟨h.runRefs, h.sessionRefs, ?_, ?_, ?_, ?_⟩, ?_⟩
  · intro r hr hlive
    exact (hend r).trans (h.ended r hr ((hl r).symm.trans hlive))
  · intro r hr
    rw [hid]
    exact h.named r hr
  · intro r hr hlive
    rw [hid]
    exact h.byRun r hr ((hl r).symm.trans hlive)
  · intro r hr hlive s hs
    rw [hses] at hs
    exact h.bySession r hr ((hl r).symm.trans hlive) s hs
  · have hc : liveCount { reg with records := records } = reg.liveCount :=
      liveCount_congr rfl fun r _ => hl r
    exact h.slots.trans hc.symm

private theorem Inv.recordEvent (h : Inv reg) (codec : Codec Data)
    (record : RecordId) (t : EventType) (d : Data) : Inv (reg.recordEvent codec record t d) := by
  apply h.congr <;> intro r <;> by_cases hr : r = record <;> simp [hr]

private theorem Inv.setCancelled (h : Inv reg) (record : RecordId) : Inv (reg.setCancelled record) := by
  apply h.congr <;> intro r <;> by_cases hr : r = record <;> simp [hr]

private theorem Inv.indexRunId (h : Inv reg)
    (hr : record < reg.size) (runId : String) : Inv (reg.indexRunId record runId) := by
  unfold RunRegistry.indexRunId
  split
  · rename_i hn
    refine ⟨⟨?_, h.sessionRefs, h.ended, h.named, ?_, h.bySession⟩, h.slots⟩
    · intro k r hk
      by_cases he : k = runId
      · subst he
        rw [AList.lookup_insert] at hk
        exact Option.some.inj hk ▸ hr
      · rw [AList.lookup_insert_ne he] at hk
        exact h.runRefs k r hk
    · intro r hlt hlive
      have hk := h.byRun r hlt hlive
      have he : (reg.records r).runId ≠ runId := by
        intro he
        rw [he] at hk
        exact hn.2 (AList.lookup_isSome.mp (by simp [hk]))
      change (reg.byRunId.insert runId record).lookup _ = _
      rw [AList.lookup_insert_ne he]
      exact hk
  · exact h

/-- The session key that `index_session` pops is not the key of another live record. -/
def popsOwnKey (reg : RunRegistry Data) (record : RecordId) (sessionId : String) : Bool :=
  match truthy (reg.records record).sessionId with
  | none => true
  | some old =>
    old = sessionId ||
      match reg.bySessionId.lookup old with
      | none => true
      | some owner => owner = record || !reg.liveRef owner

private theorem popsOwnKey_owner {sessionId old : String}
    (h : reg.popsOwnKey record sessionId) (hold : truthy (reg.records record).sessionId = some old)
    (hne : old ≠ sessionId) {owner : RecordId} (ho : reg.bySessionId.lookup old = some owner)
    (hl : reg.liveRef owner) : owner = record := by
  simpa [popsOwnKey, hold, hne, ho, hl] using h

private theorem Inv.rekeySession (h : Inv reg)
    (hr : record < reg.size) {sessionId : String} (hne : sessionId ≠ "")
    (hfree : ∀ r, reg.bySessionId.lookup sessionId = some r → reg.liveRef r → r = record)
    (hown : reg.popsOwnKey record sessionId) : Inv (reg.rekeySession record sessionId) := by
  let reg' := reg.rekeySession record sessionId
  have hl (r : RecordId) : reg'.liveRef r = reg.liveRef r := by
    by_cases he : r = record <;> simp [reg', RunRegistry.rekeySession, liveRef, he, RunRecord.live]
  have hother {r : RecordId} (he : r ≠ record) : reg'.records r = reg.records r := by
    simp [reg', RunRegistry.rekeySession, he]
  have hsame : reg'.records record = { reg.records record with sessionId := some sessionId } := by
    simp [reg', RunRegistry.rekeySession]
  have hnew : reg'.bySessionId.lookup sessionId = some record := by
    simp [reg', RunRegistry.rekeySession]
  have hback {k : String} {r : RecordId} (hk : reg'.bySessionId.lookup k = some r)
      (he : k ≠ sessionId) : reg.bySessionId.lookup k = some r := by
    simp only [reg', RunRegistry.rekeySession, AList.lookup_insert_ne he] at hk
    split at hk
    · exact hk
    · split at hk
      · exact hk
      · rename_i old _ _
        by_cases ho : k = old
        · subst ho
          simp at hk
        · rwa [AList.lookup_erase_ne ho] at hk
  have hkeep {k : String} {r : RecordId} (hk : reg.bySessionId.lookup k = some r)
      (hlive : reg.liveRef r) (he : r ≠ record) : reg'.bySessionId.lookup k = some r := by
    have hks : k ≠ sessionId := by
      rintro rfl
      exact he (hfree r hk hlive)
    simp only [reg', RunRegistry.rekeySession, AList.lookup_insert_ne hks]
    split
    · exact hk
    · rename_i old hold
      split
      · exact hk
      · rename_i ho
        have hko : k ≠ old := by
          rintro rfl
          exact he (popsOwnKey_owner hown hold ho hk hlive)
        rwa [AList.lookup_erase_ne hko]
  refine ⟨⟨h.runRefs, ?_, ?_, ?_, ?_, ?_⟩, ?_⟩
  · intro k r hk
    by_cases he : k = sessionId
    · subst he
      rw [hnew] at hk
      exact Option.some.inj hk ▸ hr
    · exact h.sessionRefs k r (hback hk he)
  · intro r hlt hlive
    have hold := h.ended r hlt ((hl r).symm.trans hlive)
    by_cases he : r = record
    · subst he
      rw [hsame]
      exact hold
    · rwa [hother he]
  · intro r hlt
    by_cases he : r = record
    · subst he
      rw [hsame]
      exact h.named r hlt
    · rw [hother he]
      exact h.named r hlt
  · intro r hlt hlive
    have hold := h.byRun r hlt ((hl r).symm.trans hlive)
    by_cases he : r = record
    · subst he
      rw [hsame]
      exact hold
    · rw [hother he]
      exact hold
  · intro r hlt hlive s hs
    by_cases he : r = record
    · subst he
      rw [hsame] at hs
      simp only [truthy, hne, if_false, Option.some.injEq] at hs
      exact hs ▸ hnew
    · rw [hother he] at hs
      have hlive := (hl r).symm.trans hlive
      exact hkeep (h.bySession r hlt hlive s hs) hlive he
  · have hc : reg'.liveCount = reg.liveCount := liveCount_congr rfl fun r _ => hl r
    exact h.slots.trans hc.symm

private theorem Inv.indexSession (h : Inv reg)
    (hr : record < reg.size) {sessionId : String} (hown : reg.popsOwnKey record sessionId) :
    Inv (reg.indexSession record sessionId).1 := by
  unfold RunRegistry.indexSession
  split
  · exact h
  · rename_i hne
    have ht : truthy (some sessionId) = some sessionId := by simp [truthy, hne]
    split
    · rename_i occupied hocc
      split
      · rename_i he
        subst he
        apply h.rekeySession hr hne _ hown
        intro r hk hlive
        simp only [liveAt, ht, hk, hlive, if_true, Option.some.injEq] at hocc
        exact hocc
      · exact h
    · rename_i hnone
      apply h.rekeySession hr hne _ hown
      intro r hk hlive
      simp [liveAt_eq_none hnone ht hk] at hlive

theorem liveCount_settle {status : RunStatus}
    (endedAt : ℚ) (hr : record < reg.size) (hlive : reg.liveRef record) (hst : status ≠ .running) :
    (reg.settle record status endedAt).liveCount + 1 = reg.liveCount := by
  let reg' := reg.settle record status endedAt
  have hnow : reg'.liveRef record = false := by
    simp [reg', settle, liveRef, RunRecord.live, hst]
  have hp : (List.range reg.size).Perm (record :: (List.range reg.size).erase record) :=
    List.perm_cons_erase (List.mem_range.mpr hr)
  have hrest : ((List.range reg.size).erase record).countP reg'.liveRef =
      ((List.range reg.size).erase record).countP reg.liveRef := by
    apply List.countP_congr
    intro r hm
    have he : r ≠ record := (List.nodup_range.mem_erase_iff.mp hm).1
    simp [reg', settle, liveRef, he]
  change (List.range reg.size).countP reg'.liveRef + 1 = (List.range reg.size).countP reg.liveRef
  rw [hp.countP_eq, hp.countP_eq, List.countP_cons, List.countP_cons, hrest]
  simp [hnow, hlive]

private theorem Inv.finish (h : Inv reg)
    (hr : record < reg.size) {status : RunStatus} (hst : status ≠ .running) (endedAt now : ℚ) :
    Inv (reg.finish record status endedAt now) := by
  unfold RunRegistry.finish
  split
  · exact h
  · rename_i hrun
    have hlive : reg.liveRef record := by simpa [liveRef, RunRecord.live] using hrun
    apply Inv.sweep
    have hother {r : RecordId} (he : r ≠ record) :
        (reg.settle record status endedAt).records r = reg.records r := by
      simp [settle, he]
    have hne {r : RecordId} (hl : (reg.settle record status endedAt).liveRef r) : r ≠ record := by
      rintro rfl
      simp [settle, liveRef, RunRecord.live, hst] at hl
    have hold {r : RecordId} (hl : (reg.settle record status endedAt).liveRef r) : reg.liveRef r := by
      have he := hne hl
      simpa [liveRef, hother he] using hl
    refine ⟨⟨h.runRefs, h.sessionRefs, ?_, ?_, ?_, ?_⟩, ?_⟩
    · intro r hlt hl
      rw [hother (hne hl)]
      exact h.ended r hlt (hold hl)
    · intro r hlt
      by_cases he : r = record
      · subst he
        simpa [settle] using h.named r hlt
      · rw [hother he]
        exact h.named r hlt
    · intro r hlt hl
      rw [hother (hne hl)]
      exact h.byRun r hlt (hold hl)
    · intro r hlt hl s hs
      rw [hother (hne hl)] at hs
      exact h.bySession r hlt (hold hl) s hs
    · have hc := liveCount_settle endedAt hr hlive hst
      have hs := h.slots
      change reg.activity - 1 = _
      omega

private theorem finishIfCancelled_size (codec : Codec Data) (endData : RunStatus → Data)
    (endedAt now : ℚ) (reg : RunRegistry Data) (record : RecordId) :
    (reg.finishIfCancelled codec endData endedAt now record).size = reg.size := by
  unfold finishIfCancelled
  split
  · simp only [recordEvent, RunRegistry.finish]
    split <;> rfl
  · rfl

private theorem Inv.finishCancelled (h : Inv reg) (codec : Codec Data)
    (endData : RunStatus → Data) (endedAt now : ℚ) :
    Inv (reg.finishCancelled codec endData endedAt now) := by
  have hrefs : ∀ r ∈ reg.indexed, r < reg.size := by
    intro r hr
    rcases mem_indexed.mp hr with ⟨k, hk⟩ | ⟨k, hk⟩
    · exact h.runRefs k r hk
    · exact h.sessionRefs k r hk
  unfold RunRegistry.finishCancelled
  -- the list of records is fixed before the loop, which only finishes records of it
  generalize reg.indexed = rs at hrefs
  induction rs generalizing reg with
  | nil => exact h
  | cons r rs ih =>
    have hr := hrefs r (by simp)
    have hturn : Inv (reg.finishIfCancelled codec endData endedAt now r) := by
      unfold finishIfCancelled
      split
      · exact (h.finish hr (by decide) endedAt now).recordEvent codec r _ _
      · exact h
    apply ih hturn
    intro q hq
    rw [finishIfCancelled_size]
    exact hrefs q (by simp [hq])

/-- The condition on a call: `index_session` does not pop another live record's key. -/
def KeepsForeignKeys (reg : RunRegistry Data) : RegistryOp Data → Prop
  | .indexSession record sessionId => reg.popsOwnKey record sessionId
  | _ => True

instance (reg : RunRegistry Data) (op : RegistryOp Data) : Decidable (reg.KeepsForeignKeys op) := by
  apply @RegistryOp.casesOn _ _ op <;> intros <;> dsimp only [KeepsForeignKeys] <;> infer_instance

private theorem Inv.step {codec : Codec Data} {reg reg' : RunRegistry Data} {op : RegistryOp Data}
    (h : Inv reg) (hc : reg.KeepsForeignKeys op) (hs : reg.step codec op = some reg') :
    Inv reg' := by
  unfold RunRegistry.step at hs
  split at hs
  · rename_i he
    obtain rfl := Option.some.inj hs
    cases op with
    | create now sessionId runId uuid => exact h.create he.1 he.2
    | indexRunId r runId => exact h.indexRunId he runId
    | indexSession r sessionId => exact h.indexSession he hc
    | finish r status endedAt now => exact h.finish he.1 he.2 endedAt now
    | get now sessionId runId =>
      simp only [apply, RunRegistry.get]
      split <;> exact h.sweep now
    | sweep now => exact h.sweep now
    | listActive now => exact h.sweep now
    | finishCancelled endData endedAt now => exact h.finishCancelled codec endData endedAt now
    | recordEvent r t d => exact h.recordEvent codec r t d
    | setCancelled r => exact h.setCancelled r
  · cases hs

/-- What the claimed consistency of the registry says about one state. -/
structure Consistent (reg : RunRegistry Data) : Prop where
  /-- A session id has at most one live record. -/
  unique : ∀ r < reg.size, ∀ q < reg.size, reg.liveRef r → reg.liveRef q → ∀ s,
    truthy (reg.records r).sessionId = some s → truthy (reg.records q).sessionId = some s → r = q
  /-- `get(run_id=r.run_id)` finds a live record. -/
  foundByRun : ∀ r < reg.size, reg.liveRef r → ∀ now,
    (reg.get now none (some (reg.records r).runId)).2 = some r
  /-- `live_for_session` finds a live record with a session id. -/
  foundBySession : ∀ r < reg.size, reg.liveRef r → ∀ s,
    truthy (reg.records r).sessionId = some s → ∀ now, reg.liveForSession now s = some r
  /-- A sweep drops no index entry of a live record. -/
  sweepKeepsLive : ∀ r < reg.size, reg.liveRef r → ∀ now k,
    (reg.byRunId.lookup k = some r → (reg.sweep now).byRunId.lookup k = some r) ∧
    (reg.bySessionId.lookup k = some r → (reg.sweep now).bySessionId.lookup k = some r)
  /-- The registry holds one activity slot for each live record. -/
  slots : reg.activity = reg.liveCount
  /-- A sweep leaves a bounded number and volume of terminal records. -/
  bounded : ∀ now, (reg.sweep now).terminal.length ≤ 32 ∧
    (reg.sweep now).bytesOf (reg.sweep now).terminal ≤ 32 * 1024 * 1024

private theorem Inv.consistent (h : Inv reg) : Consistent reg where
  unique := by
    intro r hr q hq hl hl' s hs hs'
    have hr := h.bySession r hr hl s hs
    rw [h.bySession q hq hl' s hs'] at hr
    exact (Option.some.inj hr).symm
  foundByRun := by
    intro r hr hl now
    have ht : truthy (some (reg.records r).runId) = some (reg.records r).runId := by
      simp [truthy, h.named r hr]
    have hk := (h.sweep now).byRun r hr hl
    rw [sweep_records] at hk
    simp [RunRegistry.get, ht, hk]
  foundBySession := by
    intro r hr hl s hs now
    have ht : truthy (some s) = some s := by simp [truthy, truthy_ne_empty hs]
    have hk := (h.sweep now).bySession r hr hl s hs
    have hn : truthy none = none := rfl
    simp [liveForSession, RunRegistry.get, ht, hn, hk, hl]
  sweepKeepsLive := by
    intro r hr hl now k
    have hn := h.toIndexed.live_not_stale hr hl now
    exact ⟨fun hk => sweep_byRunId.mpr ⟨hk, hn⟩, fun hk => sweep_bySessionId.mpr ⟨hk, hn⟩⟩
  slots := h.slots
  bounded := sweep_bounds reg

/-- Every sequence of calls that never pops another live record's session key keeps the
registry consistent. -/
theorem consistent_of_keepsForeignKeys (codec : Codec Data) (ops : List (RegistryOp Data))
    (reg : RunRegistry Data) (hm : RunMeets (step codec) KeepsForeignKeys empty ops)
    (hr : run (step codec) empty ops = some reg) : Consistent reg :=
  (run_invariant (fun _ _ _ hi hc hs => hi.step hc hs) inv_empty hm hr).consistent

def unitCodec : Codec Unit := ⟨fun _ _ => 2, fun _ _ _ => 2, fun _ => none, ()⟩

/-- A session is run twice in a row, and the second run moves to a new session id. -/
def sequentialRuns : List (RegistryOp Unit) :=
  [.create 0 (some "s1") none "a", .finish 0 .completed 1 1, .create 2 (some "s1") none "b",
    .indexSession 1 "s2"]

theorem consistent_sequentialRuns : ∃ reg, run (step unitCodec) empty sequentialRuns = some reg ∧
    Consistent reg := by
  obtain ⟨reg, hr⟩ := Option.isSome_iff_exists.mp
    (show (run (step unitCodec) empty sequentialRuns).isSome by decide +kernel)
  exact ⟨reg, hr, consistent_of_keepsForeignKeys unitCodec sequentialRuns reg
    (by decide +kernel) hr⟩

/-- The finished first run moves to a new session id while the second one is live. -/
def lateRekey : List (RegistryOp Unit) :=
  [.create 0 (some "s1") none "a", .finish 0 .completed 1 1, .create 2 (some "s1") none "b",
    .indexSession 0 "s2"]

/-- The second run is live with session id `s1`, and `live_for_session` does not find it. -/
theorem lateRekey_hides_live_record : ∃ reg, run (step unitCodec) empty lateRekey = some reg ∧
    ¬ Consistent reg := by
  let hidden (reg : RunRegistry Unit) : Bool := 1 < reg.size && reg.liveRef 1 &&
    truthy (reg.records 1).sessionId = some "s1" && reg.liveForSession 3 "s1" = none
  have h : (run (step unitCodec) empty lateRekey).map hidden = some true := by decide +kernel
  obtain ⟨reg, hr, ht⟩ := exists_run_of_map _ empty lateRekey hidden h
  simp only [hidden, Bool.and_eq_true, decide_eq_true_eq] at ht
  obtain ⟨⟨⟨hlt, hl⟩, hs⟩, hnone⟩ := ht
  refine ⟨reg, hr, ?_⟩
  intro h
  have hfound := h.foundBySession 1 hlt hl "s1" hs 3
  rw [hnone] at hfound
  cases hfound

end RunRegistry

end PrivaCloud.AgentRunner
