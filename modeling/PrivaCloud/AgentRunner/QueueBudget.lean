import PrivaCloud.Framework.Run
import PrivaCloud.AgentRunner.BoundedQueue

/-!
# The byte budget of the bounded queue

`BoundedAsyncQueue` with its callers. A `put` waits for `_put_lock`, then for bytes, then for a slot of the
inner `asyncio.Queue`; waiters may be woken in any order. `put_nowait`, and `get` once there is an item, are one
section each.
-/

namespace PrivaCloud.AgentRunner

open Framework

/-- `__init__`; limits that are not positive raise. -/
def BoundedAsyncQueue.create? (α : Type) (maxsize maxBytes : Int) : Option (BoundedAsyncQueue α) :=
  if maxsize ≤ 0 ∨ maxBytes ≤ 0 then none else some { maxsize := maxsize.toNat, maxBytes := maxBytes.toNat }

/-- Where a call of `put` is suspended. -/
inductive PutPhase (α : Type)
  | idle
  | locking (item : α) (size : Nat)
  /-- awaiting `_byte_space`, under the lock -/
  | waitingBytes (item : α) (size : Nat)
  /-- awaiting the inner `put`, under the lock -/
  | waitingSlot (item : α) (size : Nat)
  | done
  | raised

def PutPhase.locked {α : Type} : PutPhase α → Bool
  | .waitingBytes .. | .waitingSlot .. => true
  | .idle | .locking .. | .done | .raised => false

structure QueueSystem (α : Type) where
  queue : BoundedAsyncQueue α
  lockHolder : Option Nat := none
  byteSpace : Bool := true
  puts : Nat → PutPhase α := fun _ => .idle
  /-- the items in the order in which they were inserted, and in which they left -/
  inserted : List α := []
  removed : List α := []

inductive QueueEvent (α : Type)
  | put (p : Nat) (item : α)
  | acquire (p : Nat)
  | bytesFreed (p : Nat)
  | slotFreed (p : Nat)
  | cancelPut (p : Nat)
  | putNowait (item : α)
  | get
  | getNowait

namespace QueueSystem

variable {α : Type}

def setPut (s : QueueSystem α) (p : Nat) (phase : PutPhase α) : QueueSystem α :=
  { s with puts := Function.update s.puts p phase }

/-- `await self._items.put(...)` and what follows it under the lock. -/
def putItem (s : QueueSystem α) (p : Nat) (item : α) (size : Nat) : QueueSystem α :=
  if s.queue.items.length < s.queue.maxsize then
    { s.setPut p .done with
      queue := s.queue.enqueue item size, lockHolder := none, inserted := s.inserted ++ [item] }
  else { s.setPut p (.waitingSlot item size) with lockHolder := some p }

/-- The loop over the byte budget. Nothing happens between the clearing of the event and the recheck. -/
def putBytes (s : QueueSystem α) (p : Nat) (item : α) (size : Nat) : QueueSystem α :=
  if s.queue.maxBytes < s.queue.bufferedBytes + size then
    { s.setPut p (.waitingBytes item size) with lockHolder := some p, byteSpace := false }
  else s.putItem p item size

section Step

variable (sizeFn : α → Int)

def step (s : QueueSystem α) : QueueEvent α → Option (QueueSystem α)
  | .put p item =>
    match s.puts p with
    | .idle =>
      match s.queue.itemSize (sizeFn item).toNat with
      | .error _ => some (s.setPut p .raised)
      | .ok size =>
        match s.lockHolder with
        | none => some (s.putBytes p item size)
        | some _ => some (s.setPut p (.locking item size))
    | _ => none
  | .acquire p =>
    match s.puts p, s.lockHolder with
    | .locking item size, none => some (s.putBytes p item size)
    | _, _ => none
  | .bytesFreed p =>
    match s.puts p, s.byteSpace with
    | .waitingBytes item size, true => some (s.putBytes p item size)
    | _, _ => none
  | .slotFreed p =>
    match s.puts p with
    -- the byte budget is not looked at again
    | .waitingSlot item size => some (s.putItem p item size)
    | _ => none
  | .cancelPut p =>
    match s.puts p with
    | .locking .. => some (s.setPut p .raised)
    | .waitingBytes .. | .waitingSlot .. => some { s.setPut p .raised with lockHolder := none }
    | _ => none
  | .putNowait item =>
    match s.queue.putNowait item (sizeFn item).toNat with
    | .ok queue => some { s with queue := queue, inserted := s.inserted ++ [item] }
    | .error _ => some s
  | .get =>
    (s.queue.getNowait).map fun (item, queue) =>
      { s with queue := queue, byteSpace := true, removed := s.removed ++ [item] }
  | .getNowait =>
    match s.queue.getNowait with
    | some (item, queue) => some { s with queue := queue, byteSpace := true, removed := s.removed ++ [item] }
    | none => some s

/-- What an event does to the queue, branch by branch. -/
inductive Moves (s : QueueSystem α) : QueueEvent α → QueueSystem α → Prop
  | refused (p item) : Moves s (.put p item) (s.setPut p .raised)
  | locks (p item) {size} (hsize : s.queue.itemSize (sizeFn item).toNat = .ok size)
      (hfree : s.lockHolder = none) : Moves s (.put p item) (s.putBytes p item size)
  | waits (p item) {size} (hsize : s.queue.itemSize (sizeFn item).toNat = .ok size) :
      Moves s (.put p item) (s.setPut p (.locking item size))
  | acquire (p) {item size} (hp : s.puts p = .locking item size) (hfree : s.lockHolder = none) :
      Moves s (.acquire p) (s.putBytes p item size)
  | bytesFreed (p) {item size} (hp : s.puts p = .waitingBytes item size) :
      Moves s (.bytesFreed p) (s.putBytes p item size)
  | slotFreed (p) {item size} (hp : s.puts p = .waitingSlot item size) :
      Moves s (.slotFreed p) (s.putItem p item size)
  | givesUp (p) : Moves s (.cancelPut p) (s.setPut p .raised)
  | unlocks (p) (hp : (s.puts p).locked = true) :
      Moves s (.cancelPut p) { s.setPut p .raised with lockHolder := none }
  | putNowait (item) {queue} (hput : s.queue.putNowait item (sizeFn item).toNat = .ok queue) :
      Moves s (.putNowait item) { s with queue := queue, inserted := s.inserted ++ [item] }
  | full (item) : Moves s (.putNowait item) s
  | get {e item queue} (he : e = .get ∨ e = .getNowait) (hget : s.queue.getNowait = some (item, queue)) :
      Moves s e { s with queue := queue, byteSpace := true, removed := s.removed ++ [item] }
  | empty : Moves s .getNowait s

variable {sizeFn}

theorem step_moves {s s' : QueueSystem α} {e : QueueEvent α} (hs : s.step sizeFn e = some s') :
    s.Moves sizeFn e s' := by
  cases e with
  | put p item =>
    simp only [step] at hs
    split at hs
    · split at hs
      · cases hs
        exact .refused p item
      · split at hs <;> cases hs
        · exact .locks p item ‹_› ‹_›
        · exact .waits p item ‹_›
    · cases hs
  | acquire p | bytesFreed p | slotFreed p =>
    simp only [step] at hs
    split at hs <;> cases hs
    constructor <;> assumption
  | cancelPut p =>
    simp only [step] at hs
    split at hs <;> cases hs
    · exact .givesUp p
    · exact .unlocks p (by simp [*, PutPhase.locked])
    · exact .unlocks p (by simp [*, PutPhase.locked])
  | putNowait item =>
    simp only [step] at hs
    split at hs <;> cases hs
    · exact .putNowait item ‹_›
    · exact .full item
  | get =>
    obtain ⟨⟨item, queue⟩, hget, rfl⟩ := Option.map_eq_some_iff.mp hs
    exact .get (.inl rfl) hget
  | getNowait =>
    simp only [step] at hs
    split at hs <;> cases hs
    · exact .get (.inr rfl) ‹_›
    · exact .empty

end Step

/-- The bytes are counted and within the budget, the items within the limit, and they leave in order. -/
structure Within (s : QueueSystem α) : Prop where
  balanced : s.queue.bufferedBytes = (s.queue.items.map (·.2)).sum
  bytes : s.queue.bufferedBytes ≤ s.queue.maxBytes
  count : s.queue.items.length ≤ s.queue.maxsize
  fifo : s.inserted = s.removed ++ s.queue.contents

/-- The bytes that the put under the lock has checked and not used yet. -/
def reserved (s : QueueSystem α) : Nat :=
  match s.lockHolder with
  | none => 0
  | some p =>
    match s.puts p with
    | .waitingSlot _ size => size
    | _ => 0

/-- No `put_nowait` takes the bytes that a waiting put has checked. -/
def Careful (sizeFn : α → Int) (s : QueueSystem α) : QueueEvent α → Bool
  | .putNowait item =>
    match s.queue.putNowait item (sizeFn item).toNat with
    | .ok queue => queue.bufferedBytes + s.reserved ≤ queue.maxBytes
    | .error _ => true
  | _ => true

/-- What holds in every run, without any condition. -/
structure Kept (s : QueueSystem α) : Prop where
  balanced : s.queue.Balanced
  count : s.queue.items.length ≤ s.queue.maxsize
  fifo : s.inserted = s.removed ++ s.queue.contents
  locked : ∀ p, (s.puts p).locked = true → s.lockHolder = some p

variable {phase : PutPhase α} {item : α} {p : Nat} {queue : BoundedAsyncQueue α}

namespace Kept

variable {s : QueueSystem α}

private theorem putItem (h : Kept s) (hlocked : ∀ q, (s.puts q).locked = true → q = p) (item : α) (size : Nat) :
    Kept (s.putItem p item size) := by
  unfold QueueSystem.putItem
  split
  · rename_i hfree
    refine ⟨h.balanced.enqueue item size, ?_, ?_, ?_⟩
    · simp only [BoundedAsyncQueue.enqueue, List.length_append, List.length_singleton]
      omega
    · change s.inserted ++ [item] = s.removed ++ (s.queue.enqueue item size).contents
      rw [BoundedAsyncQueue.contents_enqueue, h.fifo, List.append_assoc]
    · intro q hq
      by_cases hqp : q = p
      · subst hqp
        simp [setPut, PutPhase.locked] at hq
      · simp only [setPut, Function.update_of_ne hqp] at hq
        exact absurd (hlocked q hq) hqp
  · refine ⟨h.balanced, h.count, h.fifo, ?_⟩
    intro q hq
    by_cases hqp : q = p
    · rw [hqp]
    · simp only [setPut, Function.update_of_ne hqp] at hq
      exact absurd (hlocked q hq) hqp

private theorem putBytes (h : Kept s) (hlocked : ∀ q, (s.puts q).locked = true → q = p) (item : α) (size : Nat) :
    Kept (s.putBytes p item size) := by
  unfold QueueSystem.putBytes
  split
  · refine ⟨h.balanced, h.count, h.fifo, ?_⟩
    intro q hq
    by_cases hqp : q = p
    · rw [hqp]
    · simp only [setPut, Function.update_of_ne hqp] at hq
      exact absurd (hlocked q hq) hqp
  · exact h.putItem hlocked item size

private theorem setPut (h : Kept s) (hphase : phase.locked = false) :
    Kept (s.setPut p phase) := by
  refine ⟨h.balanced, h.count, h.fifo, ?_⟩
  intro q hq
  by_cases hqp : q = p
  · subst hqp
    simp [QueueSystem.setPut, hphase] at hq
  · simp only [QueueSystem.setPut, Function.update_of_ne hqp] at hq
    exact h.locked q hq

theorem free (h : Kept s) (hfree : s.lockHolder = none) (p : Nat) : ∀ q, (s.puts q).locked = true → q = p := by
  intro q hq
  have hholder := h.locked q hq
  rw [hfree] at hholder
  cases hholder

theorem held (h : Kept s) (hp : (s.puts p).locked = true) : ∀ q, (s.puts q).locked = true → q = p := by
  intro q hq
  have hholder := h.locked q hq
  rw [h.locked p hp] at hholder
  exact (Option.some.inj hholder).symm

private theorem take (h : Kept s) (hget : s.queue.getNowait = some (item, queue)) :
    Kept { s with queue := queue, byteSpace := true, removed := s.removed ++ [item] } := by
  have hcontents := BoundedAsyncQueue.contents_getNowait hget
  refine ⟨h.balanced.getNowait hget, ?_, ?_, h.locked⟩
  · have hcount := h.count
    unfold BoundedAsyncQueue.getNowait at hget
    split at hget <;> cases hget
    rename_i hitems
    rw [hitems, List.length_cons] at hcount
    exact Nat.le_of_succ_le hcount
  · change s.inserted = s.removed ++ [item] ++ queue.contents
    rw [h.fifo, hcontents, List.append_assoc]
    rfl

theorem step (h : Kept s) {sizeFn : α → Int} {e : QueueEvent α} {s' : QueueSystem α} (hs : step sizeFn s e = some s') :
    Kept s' := by
  cases step_moves hs with
  | refused | waits | givesUp => exact h.setPut rfl
  | locks p item _ hfree => exact h.putBytes (h.free hfree p) item _
  | acquire p _ hfree => exact h.putBytes (h.free hfree p) _ _
  | bytesFreed p hp => exact h.putBytes (h.held (by rw [hp]; rfl)) _ _
  | slotFreed p hp => exact h.putItem (h.held (by rw [hp]; rfl)) _ _
  | unlocks p hp =>
    refine ⟨h.balanced, h.count, h.fifo, ?_⟩
    intro q hq
    by_cases hqp : q = p
    · subst hqp
      simp [QueueSystem.setPut, PutPhase.locked] at hq
    · simp only [QueueSystem.setPut, Function.update_of_ne hqp] at hq
      exact absurd (h.held hp q hq) hqp
  | putNowait item hput =>
    have hcontents := BoundedAsyncQueue.contents_putNowait hput
    unfold BoundedAsyncQueue.putNowait at hput
    split at hput
    · cases hput
    split at hput <;> cases hput
    rename_i size _ hfits
    simp only [BoundedAsyncQueue.fits, Bool.and_eq_true, decide_eq_true_eq] at hfits
    refine ⟨h.balanced.enqueue item size, ?_, ?_, h.locked⟩
    · simp only [BoundedAsyncQueue.enqueue, List.length_append, List.length_singleton]
      omega
    · change s.inserted ++ [item] = s.removed ++ (s.queue.enqueue item size).contents
      rw [hcontents, h.fifo, List.append_assoc]
  | get _ hget => exact h.take hget
  | full | empty => exact h

end Kept

/-- The bytes in the queue and those that the put under the lock has checked are within the budget. -/
def Room (s : QueueSystem α) : Prop := s.queue.bufferedBytes + s.reserved ≤ s.queue.maxBytes

private theorem reserved_setPut (s : QueueSystem α) (p : Nat)
    (hphase : ∀ item size, phase ≠ .waitingSlot item size) : (s.setPut p phase).reserved ≤ s.reserved := by
  unfold reserved
  change (match s.lockHolder with | none => 0 | some q => _) ≤ _
  cases hholder : s.lockHolder with
  | none => exact Nat.le_refl _
  | some q =>
    simp only [setPut]
    by_cases hqp : q = p
    · subst hqp
      rw [Function.update_self]
      cases phase with
      | waitingSlot item size => exact absurd rfl (hphase item size)
      | _ => exact Nat.zero_le _
    · refine Nat.le_of_eq ?_
      rw [Function.update_of_ne hqp]

namespace Room

variable {s : QueueSystem α}

private theorem putItem {size : Nat} (hfits : s.queue.bufferedBytes + size ≤ s.queue.maxBytes) :
    Room (s.putItem p item size) := by
  unfold QueueSystem.putItem
  split
  · exact hfits
  · simp only [Room, reserved, setPut, Function.update_self]
    exact hfits

private theorem putBytes (h : Room s) {size : Nat} : Room (s.putBytes p item size) := by
  unfold QueueSystem.putBytes
  split
  · simp only [Room, reserved, setPut, Function.update_self]
    exact Nat.le_trans (Nat.le_add_right _ _) h
  · rename_i hfits
    exact putItem (Nat.le_of_not_lt hfits)

private theorem setPut (h : Room s) (hphase : ∀ item size, phase ≠ .waitingSlot item size) :
    Room (s.setPut p phase) := by
  have hreserved := reserved_setPut s p hphase
  exact Nat.le_trans (Nat.add_le_add_left hreserved _) h

private theorem take (h : Room s) (hget : s.queue.getNowait = some (item, queue)) :
    Room { s with queue := queue, byteSpace := true, removed := s.removed ++ [item] } := by
  unfold BoundedAsyncQueue.getNowait at hget
  split at hget <;> cases hget
  exact Nat.le_trans (Nat.add_le_add_right (Nat.sub_le _ _) _) h

private theorem step (h : Room s) (hkept : Kept s) {sizeFn : α → Int} {e : QueueEvent α} {s' : QueueSystem α}
    (hcareful : Careful sizeFn s e = true) (hs : step sizeFn s e = some s') : Room s' := by
  cases step_moves hs with
  | refused | waits | givesUp => exact h.setPut (by simp)
  | locks | acquire | bytesFreed => exact h.putBytes
  | @slotFreed p item size hp =>
    have hholder := hkept.locked p (by rw [hp]; rfl)
    have hreserved : s.reserved = size := by
      rw [reserved, hholder]
      simp only [hp]
    exact putItem (by rw [← hreserved]; exact h)
  | unlocks p => exact Nat.le_trans (Nat.le_add_right _ _) h
  | putNowait item hput =>
    simp only [Careful, hput, decide_eq_true_eq] at hcareful
    exact hcareful
  | get _ hget => exact h.take hget
  | full | empty => exact h

end Room

theorem kept_create {maxsize maxBytes : Int}
    (hcreate : BoundedAsyncQueue.create? α maxsize maxBytes = some queue) :
    Kept { queue := queue } ∧ Room { queue := queue } := by
  unfold BoundedAsyncQueue.create? at hcreate
  split at hcreate <;> cases hcreate
  exact ⟨⟨rfl, Nat.zero_le _, rfl, fun _ h => by cases h⟩, Nat.zero_le _⟩

/-- In a careful run the queue is within both limits. -/
theorem within_of_careful (sizeFn : α → Int) {maxsize maxBytes : Int} {queue : BoundedAsyncQueue α}
    (hcreate : BoundedAsyncQueue.create? α maxsize maxBytes = some queue) {es : List (QueueEvent α)}
    {s : QueueSystem α}
    (hm : RunMeets (step sizeFn) (fun s e => Careful sizeFn s e = true) { queue := queue } es)
    (hr : run (step sizeFn) { queue := queue } es = some s) : Within s := by
  have hstep : ∀ s e s', Kept s ∧ Room s → Careful sizeFn s e = true → step sizeFn s e = some s' →
      Kept s' ∧ Room s' := fun s e s' h hc hs => ⟨h.1.step hs, h.2.step h.1 hc hs⟩
  obtain ⟨hkept, hroom⟩ := run_invariant hstep (kept_create hcreate) hm hr
  exact ⟨hkept.balanced, Nat.le_trans (Nat.le_add_right _ _) hroom, hkept.count, hkept.fifo⟩

/-- The items are their own sizes. One put waits for a slot, the next one for the lock and then for bytes,
a third one is cancelled, and a control event is inserted beside them. -/
def busyQueue : List (QueueEvent Int) :=
  [.put 0 4, .put 1 3, .put 2 2, .put 3 9, .putNowait 9, .get, .putNowait 1, .slotFreed 2, .get, .slotFreed 2,
    .acquire 3, .put 4 1, .cancelPut 4, .get, .bytesFreed 3, .get, .bytesFreed 3, .getNowait, .getNowait]

theorem within_busyQueue :
    ∃ s, run (step id) { queue := { maxsize := 2, maxBytes := 10 } } busyQueue = some s ∧ Within s := by
  obtain ⟨s, hr⟩ := Option.isSome_iff_exists.mp
    (show (run (step id) { queue := { maxsize := 2, maxBytes := 10 } } busyQueue).isSome by decide)
  have hcreate : BoundedAsyncQueue.create? Int 2 10 = some { maxsize := 2, maxBytes := 10 } := by decide
  exact ⟨s, hr, within_of_careful id hcreate (by decide) hr⟩

/-- A put of eight bytes waits for a slot with two bytes in the queue; a control event of nine bytes takes
the slot and the budget, and the put does not look at the budget again. -/
theorem not_within_overfullQueue : ∃ queue s, BoundedAsyncQueue.create? Int 2 10 = some queue ∧
    run (step id) { queue := queue } [.put 0 1, .put 1 1, .put 2 8, .get, .putNowait 9, .get, .slotFreed 2] = some s ∧
    ¬ Within s := by
  refine ⟨{ maxsize := 2, maxBytes := 10 }, ?_⟩
  obtain ⟨s, hr, hbytes⟩ := exists_run_of_decide (step id) { queue := { maxsize := 2, maxBytes := 10 } }
    [.put 0 1, .put 1 1, .put 2 8, .get, .putNowait 9, .get, .slotFreed 2]
    (fun s (hs : s.queue.maxBytes < s.queue.bufferedBytes) => hs) (by decide)
  exact ⟨s, by decide, hr, fun hwithin => absurd hwithin.bytes (Nat.not_le_of_gt hbytes)⟩

end QueueSystem

end PrivaCloud.AgentRunner
