import PrivaCloud.AgentRunner.Pool.TurnQueues
import PrivaCloud.AgentRunner.Pool.Watches

/-!
# No turn waits on a dead runtime

When the receiver of a resident has ended, its retirement or its close is under way, and every lease
on it has a notice in its queue or gets one with the first section of the close.
-/

namespace PrivaCloud.AgentRunner

open Framework

/-- A queue of a turn within its limits. -/
structure TurnQueue.Sound (q : TurnQueue) : Prop where
  maxsize : q.maxsize = maxTurnFrames
  maxBytes : q.maxBytes = maxTurnFrameBytes
  balanced : q.Balanced

private theorem TurnQueue.sound_empty : TurnQueue.empty.Sound := ⟨rfl, rfl, rfl⟩

variable {q : TurnQueue}

private theorem TurnQueue.Sound.enqueue (h : q.Sound) (item : QueueItem) (size : Nat) :
    TurnQueue.Sound (q.enqueue item size) :=
  ⟨h.maxsize, h.maxBytes, h.balanced.enqueue item size⟩

private theorem TurnQueue.Sound.drained (h : q.Sound) : TurnQueue.Sound (BoundedAsyncQueue.drained q) :=
  ⟨h.maxsize, h.maxBytes, h.balanced.drained.1⟩

private theorem TurnQueue.Sound.putNowait {q q' : TurnQueue} {item : QueueItem} {size : Nat} (h : q.Sound)
    (hq : q.putNowait item size = .ok q') : q'.Sound := by
  unfold BoundedAsyncQueue.putNowait at hq
  split at hq
  · cases hq
  · split at hq <;> cases hq
    exact h.enqueue item _

private theorem TurnQueue.Sound.getNowait {q q' : TurnQueue} {item : QueueItem} (h : q.Sound)
    (hq : q.getNowait = some (item, q')) : q'.Sound := by
  have hbalanced := h.balanced.getNowait hq
  unfold BoundedAsyncQueue.getNowait at hq
  split at hq <;> cases hq
  exact ⟨h.maxsize, h.maxBytes, hbalanced⟩

private theorem TurnQueue.Sound.closeNotice (h : q.Sound) :
    (BoundedAsyncQueue.drained q).putNowait (.error false) TurnQueues.closeNoticeSize =
      .ok ((BoundedAsyncQueue.drained q).enqueue (.error false) TurnQueues.closeNoticeSize) := by
  apply h.balanced.drained_putNowait
  · decide
  · rw [h.maxBytes]
    decide
  · rw [h.maxsize]
    decide

namespace TurnQueues

/-- A notice waits in the queue of the turn, or has been taken from it. -/
def Notified (s : TurnQueues) (t : Nat) : Prop :=
  s.raised t = true ∨ ∃ nonretry, QueueItem.error nonretry ∈ (s.queues t).contents

/-- The close of `r` is still to begin, and its first section puts a notice into the queue of `t`,
as long as `t` has its lease. -/
def WillNotify (s : TurnQueues) (r t : Nat) : Prop :=
  (s.pool.heap r).closeBegun = false ∧
    ∀ es s₁ memory s₂, run step s es = some s₁ → (s₁.pool.tasks t).lease = some r →
      s₁.step (.pool (.evolve r .closeBegins memory)) = some s₂ → s₂.Notified t

structure Inv (s : TurnQueues) : Prop where
  watched : s.pool.Watched s.Notified
  sound : ∀ t, TurnQueue.Sound (s.queues t)

private theorem inv_init (capacity : Option Nat) (memory : RuntimeMemorySnapshot) : (init capacity memory).Inv :=
  ⟨PoolSystem.watched_init _ capacity memory, fun _ => TurnQueue.sound_empty⟩

variable {s s' : TurnQueues} {t t' r : Nat}

private theorem setQueue_self (s : TurnQueues) (t : Nat) (q : TurnQueue) : (s.setQueue t q).queues t = q := by
  simp [setQueue]

private theorem setQueue_other (he : t' ≠ t) (q : TurnQueue) : (s.setQueue t q).queues t' = s.queues t' := by
  simp [setQueue, he]

private theorem sound_setQueue (h : ∀ t, TurnQueue.Sound (s.queues t)) {q : TurnQueue} (hq : q.Sound)
    (t' : Nat) : TurnQueue.Sound ((s.setQueue t q).queues t') := by
  by_cases he : t' = t
  · rw [he, setQueue_self]
    exact hq
  · rw [setQueue_other he]
    exact h t'

private theorem Notified.setQueue (h : s.Notified t')
    (hq : ∀ item ∈ (s.queues t).contents, item ∈ q.contents) : (s.setQueue t q).Notified t' := by
  rcases h with h | ⟨nonretry, h⟩
  · exact .inl h
  · right
    by_cases he : t' = t
    · rw [he] at h ⊢
      rw [setQueue_self]
      exact ⟨nonretry, hq _ h⟩
    · rw [setQueue_other he]
      exact ⟨nonretry, h⟩

private theorem Notified.enqueue (h : s.Notified t') (item : QueueItem) (size : Nat) :
    (s.setQueue t ((s.queues t).enqueue item size)).Notified t' := by
  apply h.setQueue
  intro other hmem
  rw [BoundedAsyncQueue.contents_enqueue]
  exact List.mem_append_left _ hmem

private theorem Notified.notify (h : s.Notified t') (r : Nat) (nonretry : Bool) (size : Nat) :
    (s.notify r nonretry size).Notified t' := by
  unfold TurnQueues.notify
  split
  · exact h
  · split
    · rename_i q hq
      apply h.setQueue
      intro other hmem
      rw [BoundedAsyncQueue.contents_putNowait hq]
      exact List.mem_append_left _ hmem
    · exact h

private theorem sound_notify (h : ∀ t, TurnQueue.Sound (s.queues t)) (r : Nat) (nonretry : Bool) (size : Nat)
    (t' : Nat) : TurnQueue.Sound ((s.notify r nonretry size).queues t') := by
  unfold TurnQueues.notify
  split
  · exact h t'
  · rename_i t _
    split
    · rename_i q hq
      exact sound_setQueue h ((h t).putNowait hq) t'
    · exact h t'

private theorem notifyClose_eq (h : ∀ t, TurnQueue.Sound (s.queues t)) (hq : (s.pool.heap r).activeQueue = some t) :
    s.notifyClose r = s.setQueue t
      ((BoundedAsyncQueue.drained (s.queues t)).enqueue (.error false) closeNoticeSize) := by
  unfold notifyClose
  rw [hq]
  simp only
  rw [(h t).closeNotice]

private theorem notified_notifyClose (h : ∀ t, TurnQueue.Sound (s.queues t))
    (hq : (s.pool.heap r).activeQueue = some t) : (s.notifyClose r).Notified t := by
  rw [notifyClose_eq h hq]
  right
  rw [setQueue_self]
  exact ⟨false, by simp⟩

private theorem Notified.notifyClose (hn : s.Notified t')
    (h : ∀ t, TurnQueue.Sound (s.queues t)) (r : Nat) : (s.notifyClose r).Notified t' := by
  cases hq : (s.pool.heap r).activeQueue with
  | none =>
    unfold TurnQueues.notifyClose
    rw [hq]
    exact hn
  | some t =>
    by_cases he : t' = t
    · rw [he]
      exact notified_notifyClose h hq
    · rw [notifyClose_eq h hq]
      rcases hn with hn | hn
      · exact .inl hn
      · right
        rw [setQueue_other he]
        exact hn

private theorem sound_notifyClose (h : ∀ t, TurnQueue.Sound (s.queues t)) (r t' : Nat) :
    TurnQueue.Sound ((s.notifyClose r).queues t') := by
  cases hq : (s.pool.heap r).activeQueue with
  | none =>
    unfold notifyClose
    rw [hq]
    exact h t'
  | some t =>
    rw [notifyClose_eq h hq]
    exact sound_setQueue h ((h t).drained.enqueue _ _) t'

private theorem sound_drainTurn (h : ∀ t, TurnQueue.Sound (s.queues t)) (r t' : Nat) :
    TurnQueue.Sound ((s.drainTurn r).queues t') := by
  unfold drainTurn
  split
  · exact h t'
  · rename_i t _
    exact sound_setQueue h (h t).drained t'

private theorem Inv.poolStep (h : s.Inv) {s₁ : TurnQueues} {e : PoolEvent} {pool : PoolSystem}
    (hs : s.pool.step e = some pool) (hq : ∀ t, s.Notified t → s₁.Notified t)
    (hsound : ∀ t, TurnQueue.Sound (s₁.queues t))
    (hb : ∀ r memory, e = .evolve r .closeBegins memory →
      ∀ t, (s.pool.tasks t).lease = some r → s₁.Notified t) : (s₁.setPool pool).Inv := by
  have hwatched : s.pool.Watched s₁.Notified := h.watched.mono fun t _ _ _ hn => hq t hn
  exact ⟨hwatched.step hb hs, hsound⟩

private theorem Inv.closeBegins (h : s.Inv) {memory : RuntimeMemorySnapshot} {pool : PoolSystem}
    (hs : s.pool.step (.evolve r .closeBegins memory) = some pool) :
    ((s.notifyClose r).setPool pool).Inv ∧
      ∀ t, (s.pool.tasks t).lease = some r → ((s.notifyClose r).setPool pool).Notified t := by
  have hscheduled : (s.pool.heap r).closeTask = .scheduled := by
    simp only [PoolSystem.step, RuntimeEvent.withAdmission, SessionRuntime.evolve] at hs
    split at hs
    · split at hs
      · assumption
      · cases hs
    · cases hs
  -- the queue of a lease is the active one until the close is done
  have htold (t : Nat) (hl : (s.pool.tasks t).lease = some r) : (s.notifyClose r).Notified t := by
    rcases h.watched.leases t r hl with hq | hdone
    · exact notified_notifyClose h.sound hq
    · rw [hscheduled] at hdone
      cases hdone
  refine ⟨?_, htold⟩
  apply h.poolStep hs
  · exact fun t hn => hn.notifyClose h.sound r
  · exact sound_notifyClose h.sound r
  · intro r' memory' he
    cases he
    exact htold

private theorem settleRelease_cases (s : PoolSystem) (t r : Nat) (keepWarm : Bool) :
    s.settleRelease t r keepWarm = (s.evict r).setTask t (.closing r) ∨
      s.settleRelease t r keepWarm = s.setTask t .ended := by
  unfold PoolSystem.settleRelease
  split
  · exact .inl rfl
  · exact .inr rfl

private theorem finishRelease_lease {s : PoolSystem} {rargs : ReleaseArgs} {safe reset : Bool}
    {unread : List UnreadFrame} {now t' r' : Nat}
    (hl : ((s.finishRelease t r rargs safe reset unread now).tasks t').lease = some r') :
    t' ≠ t ∧ (s.tasks t').lease = some r' := by
  have hset (s₁ : PoolSystem) (phase : TaskPhase) (hphase : phase.lease = none)
      (hs₁ : s₁.tasks = s.tasks) (hl : ((s₁.setTask t phase).tasks t').lease = some r') :
      t' ≠ t ∧ (s.tasks t').lease = some r' := by
    by_cases he : t' = t
    · simp [PoolSystem.setTask, he, hphase] at hl
    · exact ⟨he, by simpa [PoolSystem.setTask, he, hs₁] using hl⟩
  unfold PoolSystem.finishRelease at hl
  simp only at hl
  rcases settleRelease_cases (s.setRuntime r ((if reset then (s.heap r).setPermissionMode
      idlePermissionMode else s.heap r).finishTurn (s.peerEnvs r unread) (rargs.tainted || !safe)
      rargs.keepWarm now)) t r rargs.keepWarm with hcase | hcase
  · rw [hcase] at hl
    exact hset _ _ rfl rfl hl
  · rw [hcase] at hl
    exact hset _ _ rfl rfl hl

private theorem finishRelease_resident {s : PoolSystem} {rargs : ReleaseArgs} {safe reset : Bool}
    {unread : List UnreadFrame} {now : Nat}
    (hr : ((s.finishRelease t r rargs safe reset unread now).heap r).resident = true) :
    (s.heap r).resident = true := by
  unfold PoolSystem.finishRelease at hr
  simp only at hr
  rcases settleRelease_cases (s.setRuntime r ((if reset then (s.heap r).setPermissionMode
      idlePermissionMode else s.heap r).finishTurn (s.peerEnvs r unread) (rargs.tainted || !safe)
      rargs.keepWarm now)) t r rargs.keepWarm with hcase | hcase
  · rw [hcase] at hr
    simp [PoolSystem.setTask, PoolSystem.evict, SessionRuntime.dismiss] at hr
  · rw [hcase] at hr
    simp only [PoolSystem.setTask, PoolSystem.setRuntime_heap_self] at hr
    rw [SessionRuntime.finishTurn_eq] at hr
    simp only at hr
    split at hr
    · exact hr
    · exact hr

private theorem Inv.quiesced (h : s.Inv) {mode : PermissionMode} {rargs : ReleaseArgs}
    (ht : s.pool.tasks t = .releasing r mode rargs) (safe reset : Bool) (unread : List UnreadFrame)
    (now : Nat) :
    ((s.drainTurn r).setPool (s.pool.finishRelease t r rargs safe reset unread now)).Inv := by
  have hwatched := h.watched.finishRelease ht safe reset unread now
  refine ⟨hwatched.mono fun t' r' hl hr hn => ?_, sound_drainTurn h.sound r⟩
  obtain ⟨hne, hl'⟩ := finishRelease_lease hl
  change (s.drainTurn r).Notified t'
  unfold drainTurn
  split
  · exact hn
  · rename_i q hq
    have hqt : t' ≠ q := by
      rintro rfl
      -- the lease is on the same runtime, whose close would be done
      obtain rfl : r' = r := by
        have htook := h.watched.took r t' hq
        cases hp : s.pool.tasks t' with
        | leased r'' mode =>
          rw [hp] at htook hl'
          exact (Option.some.inj hl').symm.trans htook
        | releasing r'' mode args =>
          rw [hp] at htook hl'
          exact (Option.some.inj hl').symm.trans htook
        | new | refreshing | evicting | connecting | connectFailing | switching | reverting | failing
        | closing | finishing | ended =>
          rw [hp] at hl'
          cases hl'
      rcases h.watched.leases t r' (by rw [ht]; rfl) with hq' | hdone
      · rw [hq] at hq'
        exact hne (Option.some.inj hq')
      · rw [(h.watched.runtimes r').closed (finishRelease_resident hr) hdone] at hq
        cases hq
    rcases hn with hn | hn
    · exact .inl hn
    · right
      rw [setQueue_other hqt]
      exact hn

private theorem Inv.receiverFails (h : s.Inv) {nonretry : Bool} {noticeSize : Nat}
    (hs : s.receiverFails r nonretry noticeSize = some s') : s'.Inv := by
  obtain ⟨pool, hp, rfl⟩ := Option.map_eq_some_iff.mp hs
  apply h.poolStep hp
  · exact fun t hn => hn.notify r nonretry noticeSize
  · exact sound_notify h.sound r nonretry noticeSize
  · intro r' memory he
    cases he

private theorem Inv.enqueue (h : s.Inv) (t : Nat) (item : QueueItem) (size : Nat) :
    (s.setQueue t ((s.queues t).enqueue item size)).Inv :=
  ⟨h.watched.mono fun _ _ _ _ hn => hn.enqueue item size,
    sound_setQueue h.sound ((h.sound t).enqueue item size)⟩

private theorem Inv.setPutting (h : s.Inv) (r : Nat) (p : Option Putting) : (s.setPutting r p).Inv :=
  ⟨h.watched, h.sound⟩

private theorem Inv.take (h : s.Inv) {item : QueueItem} (hq : (s.queues t).getNowait = some (item, q)) :
    { s.setQueue t q with
      raised := Function.update s.raised t (s.raised t || item.frame?.isNone) }.Inv := by
  refine ⟨h.watched.mono fun t' _ _ _ hn => ?_, sound_setQueue h.sound ((h.sound t).getNowait hq)⟩
  by_cases he : t' = t
  · rw [he] at hn ⊢
    unfold Notified
    simp only [Function.update_self]
    rw [setQueue_self]
    rcases hn with hn | ⟨nonretry, hn⟩
    · exact .inl (by rw [hn, Bool.true_or])
    · rw [BoundedAsyncQueue.contents_getNowait hq] at hn
      rcases List.mem_cons.mp hn with hn | hn
      · exact .inl (by rw [← hn, QueueItem.frame?, Option.isNone_none, Bool.or_true])
      · exact .inr ⟨nonretry, hn⟩
  · unfold Notified
    simp only [Function.update_of_ne he]
    rw [setQueue_other he]
    exact hn

private theorem Inv.pool (h : s.Inv) {e : PoolEvent} {pool : PoolSystem}
    (hp : s.pool.step e = some pool) : ((s.around e).setPool pool).Inv := by
  have hplain (hb : ∀ r memory, e ≠ .evolve r .closeBegins memory) : (s.setPool pool).Inv :=
    h.poolStep hp (fun _ hn => hn) h.sound fun r memory he => absurd he (hb r memory)
  cases e with
  | evolve r e memory =>
    cases e with
    | closeBegins => exact (h.closeBegins hp).1
    | receiverEnds => exact (hplain fun _ _ he => by cases he).setPutting r none
    | toolCall | toolReturn | closeUnbound | closeDisconnected | closeJoined | frame
    | receiverFails => exact hplain fun _ _ he => by cases he
  | quiesced t safe reset unread now =>
    obtain ⟨⟩ := PoolSystem.step_moves hp
    rename_i ht _
    simp only [around, ht]
    exact h.quiesced ht safe reset unread now
  | acquire | admission | evicted | connected | connectFails | switched | reverted | startFails
  | closed | cancel | unbindTurn | resetTurn | remap | release | releaseFails | refreshCapacity
  | configure | recycleAll | reserveSession | reserveSweep | releaseMaintenance | retire | retired =>
    exact hplain fun _ _ he => by cases he

private theorem Inv.step (h : s.Inv) {e : TurnQueueEvent} (hs : s.step e = some s') : s'.Inv := by
  cases e with
  | pool e =>
    obtain ⟨-, hs⟩ := Option.ite_none_right_eq_some.mp hs
    obtain ⟨pool, hp, rfl⟩ := Option.map_eq_some_iff.mp hs
    exact h.pool hp
  | read r f size noticeSize env memory =>
    obtain ⟨-, hs⟩ := Option.ite_none_right_eq_some.mp hs
    split at hs
    · unfold putFrame at hs
      split at hs
      · exact h.receiverFails hs
      · split at hs
        · cases hs
          exact h.enqueue _ _ _
        · cases hs
          exact h.setPutting _ _
    · obtain ⟨pool, hp, rfl⟩ := Option.map_eq_some_iff.mp hs
      apply h.poolStep hp
      · exact fun _ hn => hn
      · exact h.sound
      · intro r' memory he
        cases he
  | putResumes r =>
    simp only [TurnQueues.step] at hs
    split at hs
    · split at hs <;> cases hs
      exact (h.setPutting r none).enqueue _ _ _
    · cases hs
  | receiverFails r nonretry noticeSize =>
    obtain ⟨-, hs⟩ := Option.ite_none_right_eq_some.mp hs
    exact h.receiverFails hs
  | take t =>
    simp only [TurnQueues.step] at hs
    split at hs <;> cases hs
    rename_i item q hq
    exact h.take hq

/-- However the receiver of a resident has ended, its retirement or its close is under way, and every
lease on it has a notice or gets one. -/
theorem notified_of_receiver_ended {capacity : Option Nat} {memory : RuntimeMemorySnapshot}
    {es : List TurnQueueEvent} (hr : run TurnQueues.step (init capacity memory) es = some s)
    (hres : (s.pool.heap r).resident = true) (hended : (s.pool.heap r).receiver = .ended) :
    ((s.pool.heap r).retireTask = .scheduled ∨ (s.pool.heap r).closeTask ≠ .absent) ∧
      ∀ t, (s.pool.tasks t).lease = some r → s.Notified t ∨ s.WillNotify r t := by
  have hinv : s.Inv :=
    run_invariant_always (fun _ _ _ hi hs => Inv.step hi hs) (inv_init capacity memory) hr
  refine ⟨((hinv.watched.runtimes r).ended hres hended).2.2, fun t hl => ?_⟩
  cases hbegun : (s.pool.heap r).closeBegun with
  | true => exact .inl (hinv.watched.told t r hl hres hbegun)
  | false =>
    refine .inr ⟨hbegun, fun es' s₁ memory' s₂ hrun hl₁ hs => ?_⟩
    have hinv₁ : s₁.Inv := run_invariant_always (fun _ _ _ hi hs => Inv.step hi hs) hinv hrun
    simp only [TurnQueues.step, enabled, if_true] at hs
    obtain ⟨pool, hp, rfl⟩ := Option.map_eq_some_iff.mp hs
    exact (hinv₁.closeBegins hp).2 t hl₁

/-- A turn on a runtime whose stream comes to its end. -/
def streamEnds : List TurnQueueEvent :=
  [.pool (.acquire (PoolSystem.userArgs "a") {}), .pool (.admission 0 false 1),
    .pool (.connected 0 2), .pool (.switched 0 3), .pool (.evolve 0 .receiverEnds {})]

theorem notified_streamEnds : ∃ s, run TurnQueues.step (init (some 2) {}) streamEnds = some s ∧
      (s.pool.heap 0).retireTask = .scheduled ∧ (s.pool.tasks 0).lease = some 0 ∧
      (s.Notified 0 ∨ s.WillNotify 0 0) := by
  obtain ⟨s, hr, hs⟩ := exists_run_of_map TurnQueues.step (init (some 2) {}) streamEnds
    (fun s => decide ((s.pool.heap 0).resident = true ∧ (s.pool.heap 0).receiver = .ended ∧
      (s.pool.heap 0).retireTask = .scheduled ∧ (s.pool.tasks 0).lease = some 0))
    (by decide)
  obtain ⟨hres, hended, hretire, hl⟩ := of_decide_eq_true hs
  exact ⟨s, hr, hretire, hl, (notified_of_receiver_ended hr hres hended).2 0 hl⟩

end TurnQueues

end PrivaCloud.AgentRunner
