import PrivaCloud.AgentRunner.QueueBudget

/-!
# The waits of the bounded queue

A `put` that waits for bytes waits for an event that `get` sets and that the next `put` clears. No wakeup is
lost over it.
-/

namespace PrivaCloud.AgentRunner

open Framework

def PutPhase.size? {α : Type} : PutPhase α → Option Nat
  | .locking _ size | .waitingBytes _ size | .waitingSlot _ size => some size
  | .idle | .done | .raised => none

namespace QueueSystem

variable {α : Type}

/-- Whoever waits for bytes has been woken, or there are not enough; nobody waits for what can never be there. -/
structure Wakes (s : QueueSystem α) : Prop where
  woken : ∀ p item size, s.puts p = .waitingBytes item size → s.byteSpace = false →
    s.queue.maxBytes < s.queue.bufferedBytes + size
  fits : ∀ p, ∀ size ∈ (s.puts p).size?, size ≤ s.queue.maxBytes
  room : 0 < s.queue.maxsize

namespace Wakes

variable {s s' : QueueSystem α} {p : Nat}

private theorem update (h : Wakes s) {phase : PutPhase α} (hputs : s'.puts = Function.update s.puts p phase)
    (hbytes : s'.queue.maxBytes = s.queue.maxBytes) (hcount : s'.queue.maxsize = s.queue.maxsize)
    (hsize : ∀ size ∈ phase.size?, size ≤ s.queue.maxBytes)
    (hown : ∀ item size, phase = .waitingBytes item size → s'.queue.maxBytes < s'.queue.bufferedBytes + size)
    (hothers : ∀ q item size, q ≠ p → s.puts q = .waitingBytes item size → s'.byteSpace = false →
      s'.queue.maxBytes < s'.queue.bufferedBytes + size) : Wakes s' := by
  refine ⟨?_, ?_, hcount ▸ h.room⟩
  · intro q item size hq hspace
    rw [hputs] at hq
    by_cases hqp : q = p
    · subst hqp
      rw [Function.update_self] at hq
      exact hown item size hq
    · rw [Function.update_of_ne hqp] at hq
      exact hothers q item size hqp hq hspace
  · intro q size hq
    rw [hbytes]
    rw [hputs] at hq
    by_cases hqp : q = p
    · subst hqp
      rw [Function.update_self] at hq
      exact hsize size hq
    · rw [Function.update_of_ne hqp] at hq
      exact h.fits q size hq

private theorem setPut (h : Wakes s) {phase : PutPhase α} (hphase : phase.locked = false)
    (hsize : ∀ size ∈ phase.size?, size ≤ s.queue.maxBytes) (holder : Option Nat) :
    Wakes { s.setPut p phase with lockHolder := holder } := by
  refine h.update rfl rfl rfl hsize ?_ fun q item size _ => h.woken q item size
  rintro item size rfl
  cases hphase

private theorem putItem (h : Wakes s) (hlocked : ∀ q, (s.puts q).locked = true → q = p) {item : α} {size : Nat}
    (hsize : size ≤ s.queue.maxBytes) : Wakes (s.putItem p item size) := by
  have hothers : ∀ q item' size', q ≠ p → s.puts q ≠ .waitingBytes item' size' := by
    intro q item' size' hqp hq
    exact hqp (hlocked q (by rw [hq]; rfl))
  unfold QueueSystem.putItem
  split
  · exact h.update rfl rfl rfl (by rintro _ ⟨⟩) (by rintro _ _ ⟨⟩)
      fun q item' size' hqp hq => absurd hq (hothers q item' size' hqp)
  · exact h.update rfl rfl rfl (by rintro _ ⟨⟩; exact hsize) (by rintro _ _ ⟨⟩)
      fun q item' size' hqp hq => absurd hq (hothers q item' size' hqp)

private theorem putBytes (h : Wakes s) (hlocked : ∀ q, (s.puts q).locked = true → q = p) {item : α} {size : Nat}
    (hsize : size ≤ s.queue.maxBytes) : Wakes (s.putBytes p item size) := by
  unfold QueueSystem.putBytes
  split
  · rename_i hfull
    refine h.update rfl rfl rfl (by rintro _ ⟨⟩; exact hsize) (by rintro _ _ ⟨⟩; exact hfull) ?_
    intro q item' size' hqp hq
    exact absurd (hlocked q (by rw [hq]; rfl)) hqp
  · exact h.putItem hlocked hsize

theorem take (h : Wakes s) {item : α} {queue : BoundedAsyncQueue α} (hget : s.queue.getNowait = some (item, queue)) :
    Wakes { s with queue := queue, byteSpace := true, removed := s.removed ++ [item] } := by
  unfold BoundedAsyncQueue.getNowait at hget
  split at hget <;> cases hget
  exact ⟨by rintro _ _ _ _ ⟨⟩, h.fits, h.room⟩

private theorem step (h : Wakes s) (hkept : Kept s) {sizeFn : α → Int} {e : QueueEvent α}
    (hs : step sizeFn s e = some s') : Wakes s' := by
  cases step_moves hs with
  | refused | givesUp | unlocks => exact h.setPut rfl (by rintro _ ⟨⟩) _
  | locks p item hsize hfree => exact h.putBytes (hkept.free hfree p) (BoundedAsyncQueue.le_of_itemSize hsize)
  | waits p item hsize => exact h.setPut rfl (by rintro _ ⟨⟩; exact BoundedAsyncQueue.le_of_itemSize hsize) _
  | acquire p hp hfree => exact h.putBytes (hkept.free hfree p) (h.fits p _ (by rw [hp]; rfl))
  | bytesFreed p hp => exact h.putBytes (hkept.held (by rw [hp]; rfl)) (h.fits p _ (by rw [hp]; rfl))
  | slotFreed p hp => exact h.putItem (hkept.held (by rw [hp]; rfl)) (h.fits p _ (by rw [hp]; rfl))
  | putNowait item hput =>
    unfold BoundedAsyncQueue.putNowait at hput
    split at hput
    · cases hput
    split at hput <;> cases hput
    refine ⟨?_, h.fits, h.room⟩
    intro p item' size' hp hspace
    exact Nat.lt_of_lt_of_le (h.woken p item' size' hp hspace)
      (Nat.add_le_add_right (Nat.le_add_right _ _) _)
  | get _ hget => exact h.take hget
  | full | empty => exact h

end Wakes

/-- But for the byte budget nothing depends on the callers: in every run the bytes are counted, the items are within
their limit and leave in order, and one put at most is under the lock. -/
theorem kept_always (sizeFn : α → Int) {maxsize maxBytes : Int} {queue : BoundedAsyncQueue α}
    (hcreate : BoundedAsyncQueue.create? α maxsize maxBytes = some queue) {es : List (QueueEvent α)}
    {s : QueueSystem α} (hr : run (step sizeFn) { queue := queue } es = some s) : Kept s :=
  run_invariant_always (fun _ _ _ h hs => h.step hs) (kept_create hcreate).1 hr

/-- Even where the budget is overrun -/
theorem kept_always_overfull : ∃ s, run (step id) { queue := { maxsize := 2, maxBytes := 10 } }
    [.put 0 1, .put 1 1, .put 2 8, .get, .putNowait 9, .get, .slotFreed 2] = some s ∧
    s.queue.maxBytes < s.queue.bufferedBytes ∧ Kept s := by
  obtain ⟨s, hr, hover⟩ := exists_run_of_decide (step id) { queue := { maxsize := 2, maxBytes := 10 } }
    [.put 0 1, .put 1 1, .put 2 8, .get, .putNowait 9, .get, .slotFreed 2]
    (fun s (hs : s.queue.maxBytes < s.queue.bufferedBytes) => hs) (by decide)
  have hcreate : BoundedAsyncQueue.create? Int 2 10 = some { maxsize := 2, maxBytes := 10 } := by decide
  exact ⟨s, hr, hover, kept_always id hcreate hr⟩

/-- No wakeup is lost: whoever waits for bytes that are there has been woken, and once the queue is empty the put
under the lock ends in its next section. -/
theorem put_resumes (sizeFn : α → Int) {maxsize maxBytes : Int} {queue : BoundedAsyncQueue α}
    (hcreate : BoundedAsyncQueue.create? α maxsize maxBytes = some queue) {es : List (QueueEvent α)}
    {s : QueueSystem α} (hr : run (step sizeFn) { queue := queue } es = some s) {p : Nat}
    (hwaits : (s.puts p).locked = true) :
    (∀ item size, s.puts p = .waitingBytes item size → s.queue.bufferedBytes + size ≤ s.queue.maxBytes →
      s.byteSpace = true) ∧
    (s.queue.items = [] → ∃ e s', (e = .bytesFreed p ∨ e = .slotFreed p) ∧ step sizeFn s e = some s' ∧
      s'.puts p = .done) := by
  have hstart : Wakes ({ queue := queue } : QueueSystem α) := by
    refine ⟨by rintro _ _ _ ⟨⟩, by rintro _ _ ⟨⟩, ?_⟩
    unfold BoundedAsyncQueue.create? at hcreate
    split at hcreate <;> cases hcreate
    dsimp only
    omega
  have hstep : ∀ s e s', Kept s ∧ Wakes s → step sizeFn s e = some s' → Kept s' ∧ Wakes s' :=
    fun s e s' h hs => ⟨h.1.step hs, h.2.step h.1 hs⟩
  obtain ⟨hkept, hwakes⟩ := run_invariant_always hstep ⟨(kept_create hcreate).1, hstart⟩ hr
  have hwoken : ∀ item size, s.puts p = .waitingBytes item size →
      s.queue.bufferedBytes + size ≤ s.queue.maxBytes → s.byteSpace = true := by
    intro item size hp hfits
    by_contra hspace
    exact absurd (hwakes.woken p item size hp (by simpa using hspace)) (Nat.not_lt.mpr hfits)
  refine ⟨hwoken, fun hempty => ?_⟩
  have hbytes : s.queue.bufferedBytes = 0 := by rw [hkept.balanced, hempty]; rfl
  have hput (item : α) (size : Nat) : (s.putItem p item size).puts p = .done := by
    unfold QueueSystem.putItem
    rw [if_pos (by rw [hempty]; exact hwakes.room)]
    exact Function.update_self ..
  cases hp : s.puts p with
  | waitingBytes item size =>
    have hsize : size ≤ s.queue.maxBytes := hwakes.fits p size (by rw [hp]; rfl)
    have hfits : s.queue.bufferedBytes + size ≤ s.queue.maxBytes := by rw [hbytes, Nat.zero_add]; exact hsize
    refine ⟨.bytesFreed p, s.putBytes p item size, .inl rfl, ?_, ?_⟩
    · simp only [step, hp, hwoken item size hp hfits]
    · unfold QueueSystem.putBytes
      rw [if_neg (Nat.not_lt.mpr hfits)]
      exact hput item size
  | waitingSlot item size =>
    exact ⟨.slotFreed p, s.putItem p item size, .inr rfl, by simp only [step, hp], hput item size⟩
  | idle | locking | done | raised =>
    rw [hp] at hwaits
    cases hwaits

/-- The second put waits for bytes until the queue is drained. -/
theorem put_resumes_drainedQueue : ∃ s e s', run (step id) { queue := { maxsize := 2, maxBytes := 10 } }
      [.put 0 6, .put 1 7, .get] = some s ∧ (e = .bytesFreed 1 ∨ e = .slotFreed 1) ∧ step id s e = some s' ∧
    s'.puts 1 = .done := by
  obtain ⟨s, hr, hwaits⟩ := exists_run_of_map (step id) { queue := { maxsize := 2, maxBytes := 10 } }
    [.put 0 6, .put 1 7, .get] (fun s => (s.puts 1).locked && s.queue.items = []) (by decide)
  simp only [Bool.and_eq_true, decide_eq_true_eq] at hwaits
  have hcreate : BoundedAsyncQueue.create? Int 2 10 = some { maxsize := 2, maxBytes := 10 } := by decide
  obtain ⟨e, s', he, hs, hdone⟩ := (put_resumes id hcreate hr hwaits.1).2 hwaits.2
  exact ⟨s, e, s', hr, he, hs, hdone⟩

end QueueSystem

end PrivaCloud.AgentRunner
