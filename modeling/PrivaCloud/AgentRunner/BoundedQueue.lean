import Mathlib.Algebra.GroupWithZero.Nat
import Mathlib.Tactic.Common

/-!
# The byte-bounded queue

`bounded_queue.BoundedAsyncQueue`: one FIFO bounded by item count and by retained bytes.
The size function of the source is applied by the caller, so an item arrives with its size.
-/

namespace PrivaCloud.AgentRunner

/-- Why an item is refused: it can never fit, or it does not fit now. -/
inductive QueueError
  | byteLimit
  | full

structure BoundedAsyncQueue (α : Type) where
  maxsize : Nat
  maxBytes : Nat
  items : List (α × Nat) := []
  bufferedBytes : Nat := 0
  deriving DecidableEq

namespace BoundedAsyncQueue

variable {α : Type}

/-- `_item_size`: the recorded size is at least one byte. -/
def itemSize (q : BoundedAsyncQueue α) (size : Nat) : Except QueueError Nat :=
  if q.maxBytes < max 1 size then .error .byteLimit else .ok (max 1 size)

theorem le_of_itemSize {q : BoundedAsyncQueue α} {n size : Nat} (h : q.itemSize n = .ok size) :
    size ≤ q.maxBytes := by
  unfold itemSize at h
  split at h <;> cases h
  exact Nat.le_of_not_lt ‹_›

/-- Both waits of `put` are over for an item of recorded size `size`. -/
def fits (q : BoundedAsyncQueue α) (size : Nat) : Bool :=
  q.bufferedBytes + size ≤ q.maxBytes && q.items.length < q.maxsize

def enqueue (q : BoundedAsyncQueue α) (item : α) (size : Nat) : BoundedAsyncQueue α :=
  { q with items := q.items ++ [(item, size)], bufferedBytes := q.bufferedBytes + size }

def putNowait (q : BoundedAsyncQueue α) (item : α) (size : Nat) : Except QueueError (BoundedAsyncQueue α) :=
  match q.itemSize size with
  | .error e => .error e
  | .ok n => if q.fits n then .ok (q.enqueue item n) else .error .full

def getNowait (q : BoundedAsyncQueue α) : Option (α × BoundedAsyncQueue α) :=
  match q.items with
  | [] => none
  | (item, size) :: rest =>
    some (item, { q with items := rest, bufferedBytes := q.bufferedBytes - size })

/-- The synchronous drain `while not q.empty(): q.get_nowait()`. -/
def drained (q : BoundedAsyncQueue α) : BoundedAsyncQueue α :=
  { q with items := [], bufferedBytes := q.bufferedBytes - (q.items.map (·.2)).sum }

def contents (q : BoundedAsyncQueue α) : List α := q.items.map (·.1)

@[simp] theorem contents_enqueue (q : BoundedAsyncQueue α) (item : α) (size : Nat) :
    (q.enqueue item size).contents = q.contents ++ [item] := by
  simp [enqueue, contents]

variable {item : α} {q q' : BoundedAsyncQueue α}

theorem contents_putNowait {size : Nat}
    (h : q.putNowait item size = .ok q') : q'.contents = q.contents ++ [item] := by
  unfold putNowait at h
  split at h
  · cases h
  · split at h <;> cases h
    simp

theorem contents_getNowait
    (h : q.getNowait = some (item, q')) : q.contents = item :: q'.contents := by
  unfold getNowait at h
  split at h <;> cases h
  rename_i he
  simp [contents, he]

@[simp] theorem contents_drained (q : BoundedAsyncQueue α) : q.drained.contents = [] := rfl

/-- The queue counts the bytes of its items. -/
def Balanced (q : BoundedAsyncQueue α) : Prop := q.bufferedBytes = (q.items.map (·.2)).sum

theorem Balanced.enqueue (h : q.Balanced) (item : α) (size : Nat) :
    (q.enqueue item size).Balanced := by
  unfold Balanced at h ⊢
  simp [BoundedAsyncQueue.enqueue, h]

theorem Balanced.getNowait (h : q.Balanced)
    (hg : q.getNowait = some (item, q')) : q'.Balanced := by
  unfold Balanced at h ⊢
  unfold BoundedAsyncQueue.getNowait at hg
  split at hg <;> cases hg
  rename_i size rest he
  rw [he] at h
  simp [h]

theorem Balanced.drained (h : q.Balanced) :
    q.drained.Balanced ∧ q.drained.bufferedBytes = 0 := by
  have hzero : q.drained.bufferedBytes = 0 := by
    unfold Balanced at h
    simp [BoundedAsyncQueue.drained, h]
  exact ⟨hzero, hzero⟩

theorem Balanced.drained_putNowait (h : q.Balanced) (item : α)
    {size : Nat} (hs : 0 < size) (hb : size ≤ q.maxBytes) (hm : 0 < q.maxsize) :
    q.drained.putNowait item size = .ok (q.drained.enqueue item size) := by
  have hsize : max 1 size = size := Nat.max_eq_right hs
  have hitem : q.drained.itemSize size = .ok size := by
    simp [itemSize, BoundedAsyncQueue.drained, hsize, Nat.not_lt.mpr hb]
  have hfits : q.drained.fits size = true := by
    simp only [fits, h.drained.2]
    simp [BoundedAsyncQueue.drained, hb, hm]
  simp [putNowait, hitem, hfits]

end BoundedAsyncQueue

end PrivaCloud.AgentRunner
