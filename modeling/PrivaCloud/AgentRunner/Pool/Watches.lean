import PrivaCloud.AgentRunner.Pool.Retirement

/-!
# Every lease of a closing resident is told

A close puts its notice into the queue that the runtime has as the active one, and the queue of a lease stays
that until the close is done. The tasks that are told are a parameter.
-/

namespace PrivaCloud.AgentRunner

open Framework

variable {phase : TaskPhase} {r : Nat}

namespace TaskPhase

/-- The task may have left its queue with the runtime. -/
def Took (phase : TaskPhase) (r : Nat) : Prop :=
  match phase with
  | .leased r' _ | .releasing r' _ _ => r' = r
  | .failing .. | .closing _ | .ended => True
  | .new | .refreshing .. | .evicting .. | .connecting .. | .connectFailing .. | .switching ..
  | .reverting .. | .finishing .. => False

/-- The task has made the runtime and has not shown it to the pool yet. -/
def maker : TaskPhase → Option Nat
  | .connecting _ r | .switching _ r true | .reverting _ r true => some r
  | _ => none

private theorem owned_of_maker (h : phase.maker = some r) : phase.owned = some r := by
  cases phase with
  | connecting args r' => exact h
  | switching args r' fresh =>
    cases fresh with
    | true => exact h
    | false => cases h
  | reverting args r' fresh =>
    cases fresh with
    | true => exact h
    | false => cases h
  | new | refreshing | evicting | connectFailing | failing | closing | leased | releasing
  | finishing | ended => cases h

theorem unowned (ho : phase.owned = none) : phase.maker = none ∧ phase.lease = none := by
  cases phase with
  | switching args r fresh => cases ho
  | reverting args r fresh => cases ho
  | connecting | leased | releasing => cases ho
  | new | refreshing | evicting | connectFailing | failing | closing | finishing | ended =>
    exact ⟨rfl, rfl⟩

end TaskPhase

namespace PoolSystem

structure Watched (s : PoolSystem) (N : Nat → Prop) : Prop where
  runtimes : ∀ r, (s.heap r).Tended
  resident : ∀ k r, s.pool.runtimes.lookup k = some r → (s.heap r).resident = true ∧ r < s.allocated
  below : ∀ t r, (s.tasks t).owned = some r → r < s.allocated
  unspawned : ∀ t, s.spawned ≤ t → s.tasks t = .new
  fresh : ∀ t r, (s.tasks t).maker = some r → (s.heap r).Fresh ∧ ∀ t', t' ≠ t → (s.tasks t').owned ≠ some r
  took : ∀ r t, (s.heap r).activeQueue = some t → (s.tasks t).Took r
  leases : ∀ t r, (s.tasks t).lease = some r → (s.heap r).activeQueue = some t ∨ (s.heap r).closeTask = .done
  told : ∀ t r, (s.tasks t).lease = some r → (s.heap r).resident = true → (s.heap r).closeBegun = true → N t

theorem watched_init (N : Nat → Prop) (capacity : Option Nat) (memory : RuntimeMemorySnapshot) :
    (init capacity memory).Watched N where
  runtimes _ := SessionRuntime.tended_of_absent rfl fun hd => by cases hd
  resident _ _ h := by cases h
  below _ _ h := by cases h
  unspawned _ _ := rfl
  fresh _ _ h := by cases h
  took _ _ h := by cases h
  leases _ _ h := by cases h
  told _ _ h := by cases h

theorem Watched.mono {N N' : Nat → Prop} {s : PoolSystem} (h : s.Watched N)
    (hN : ∀ t r, (s.tasks t).lease = some r → (s.heap r).resident = true → N t → N' t) :
    s.Watched N' :=
  ⟨h.runtimes, h.resident, h.below, h.unspawned, h.fresh, h.took, h.leases,
    fun t r hl hr hb => hN t r hl hr (h.told t r hl hr hb)⟩

section Primitives

variable {N : Nat → Prop} {s : PoolSystem} {t r : Nat}

theorem Watched.setPool (h : s.Watched N) {pool : SessionRuntimePool}
    (hp : ∀ k r, pool.runtimes.lookup k = some r → (s.heap r).resident = true ∧ r < s.allocated) :
    (s.setPool pool).Watched N :=
  ⟨h.runtimes, hp, h.below, h.unspawned, h.fresh, h.took, h.leases, h.told⟩

variable {v : SessionRuntime}

private theorem Watched.setRuntime (h : s.Watched N) (hv : v.Tended)
    (hr : ∀ k, s.pool.runtimes.lookup k = some r → v.resident = true)
    (hf : ∀ t, (s.tasks t).maker = some r → v.Fresh)
    (ht : ∀ t, v.activeQueue = some t → (s.tasks t).Took r)
    (hl : ∀ t, (s.tasks t).lease = some r → v.activeQueue = some t ∨ v.closeTask = .done)
    (hb : ∀ t, (s.tasks t).lease = some r → v.resident = true → v.closeBegun = true → N t) :
    (s.setRuntime r v).Watched N := by
  have hother {r' : Nat} (he : r' ≠ r) : (s.setRuntime r v).heap r' = s.heap r' := by
    simp [PoolSystem.setRuntime, he]
  constructor
  · intro r'
    by_cases he : r' = r
    · rw [he, setRuntime_heap_self]
      exact hv
    · rw [hother he]
      exact h.runtimes r'
  · intro k r' hk
    obtain ⟨hres, hlt⟩ := h.resident k r' hk
    refine ⟨?_, hlt⟩
    by_cases he : r' = r
    · rw [he] at hk ⊢
      rw [setRuntime_heap_self]
      exact hr k hk
    · rw [hother he]
      exact hres
  · exact h.below
  · exact h.unspawned
  · intro t' r' hm
    obtain ⟨hfresh, hfree⟩ := h.fresh t' r' hm
    refine ⟨?_, hfree⟩
    by_cases he : r' = r
    · rw [he] at hm ⊢
      rw [setRuntime_heap_self]
      exact hf t' hm
    · rw [hother he]
      exact hfresh
  · intro r' t' hq
    by_cases he : r' = r
    · rw [he, setRuntime_heap_self] at hq
      rw [he]
      exact ht t' hq
    · rw [hother he] at hq
      exact h.took r' t' hq
  · intro t' r' hl'
    by_cases he : r' = r
    · rw [he] at hl' ⊢
      rw [setRuntime_heap_self]
      exact hl t' hl'
    · rw [hother he]
      exact h.leases t' r' hl'
  · intro t' r' hl'
    by_cases he : r' = r
    · rw [he] at hl' ⊢
      rw [setRuntime_heap_self]
      exact hb t' hl'
    · rw [hother he]
      exact h.told t' r' hl'

/-- A runtime changes, but not its turn. -/
theorem Watched.keeps (h : s.Watched N) (hv : v.Tended)
    (hr : v.resident = (s.heap r).resident) (hf : (s.heap r).Fresh → v.Fresh)
    (hq : v.activeQueue = (s.heap r).activeQueue)
    (hc : (s.heap r).closeTask = .done → v.closeTask = .done)
    (hb : v.closeBegun = true → (s.heap r).closeBegun = true) : (s.setRuntime r v).Watched N := by
  apply h.setRuntime hv
  · intro k hk
    rw [hr]
    exact (h.resident k r hk).1
  · exact fun t hm => hf (h.fresh t r hm).1
  · intro t ht
    rw [hq] at ht
    exact h.took r t ht
  · intro t hl
    rw [hq]
    exact (h.leases t r hl).imp_right hc
  · intro t hl hres hbegun
    rw [hr] at hres
    exact h.told t r hl hres (hb hbegun)

private theorem Watched.same (h : s.Watched N) (hs : v.state = (s.heap r).state)
    (hf : v.healthyFlag = (s.heap r).healthyFlag) (hr : v.resident = (s.heap r).resident)
    (hv : v.receiver = (s.heap r).receiver) (hc : v.closeTask = (s.heap r).closeTask)
    (ht : v.retireTask = (s.heap r).retireTask) (hq : v.activeQueue = (s.heap r).activeQueue) :
    (s.setRuntime r v).Watched N :=
  h.keeps ((h.runtimes r).same hs hf hr hv hc ht hq) hr (fun h' => h'.same hs hr hv hc ht hq) hq
    (fun h' => hc.trans h') (by rw [SessionRuntime.closeBegun, hc]; exact id)

private theorem Watched.setTask (h : s.Watched N) (phase : TaskPhase) (hn : s.tasks t ≠ .new)
    (ho : ∀ r, phase.owned = some r → r < s.allocated ∧ ∀ t', t' ≠ t → (s.tasks t').maker ≠ some r)
    (hm : ∀ r, phase.maker = some r → (s.heap r).Fresh ∧ ∀ t', t' ≠ t → (s.tasks t').owned ≠ some r)
    (ht : ∀ r, (s.heap r).activeQueue = some t → phase.Took r)
    (hl : ∀ r, phase.lease = some r → (s.heap r).activeQueue = some t ∨ (s.heap r).closeTask = .done)
    (hb : ∀ r, phase.lease = some r → (s.heap r).resident = true →
      (s.heap r).closeBegun = true → N t) : (s.setTask t phase).Watched N := by
  have hself : (s.setTask t phase).tasks t = phase := by simp [PoolSystem.setTask]
  have hother {t' : Nat} (he : t' ≠ t) : (s.setTask t phase).tasks t' = s.tasks t' := by
    simp [PoolSystem.setTask, he]
  constructor
  · exact h.runtimes
  · exact h.resident
  · intro t' r hr
    by_cases he : t' = t
    · rw [he, hself] at hr
      exact (ho r hr).1
    · rw [hother he] at hr
      exact h.below t' r hr
  · intro t' hb
    have he : t' ≠ t := by
      rintro rfl
      exact hn (h.unspawned t' hb)
    rw [hother he]
    exact h.unspawned t' hb
  · intro t' r hr
    by_cases he : t' = t
    · rw [he, hself] at hr
      refine ⟨(hm r hr).1, fun t'' hne => ?_⟩
      rw [he] at hne
      rw [hother hne]
      exact (hm r hr).2 t'' hne
    · rw [hother he] at hr
      refine ⟨(h.fresh t' r hr).1, fun t'' hne hr' => ?_⟩
      by_cases he' : t'' = t
      · rw [he', hself] at hr'
        exact (ho r hr').2 t' he hr
      · rw [hother he'] at hr'
        exact (h.fresh t' r hr).2 t'' hne hr'
  · intro r t' hq
    by_cases he : t' = t
    · rw [he] at hq ⊢
      rw [hself]
      exact ht r hq
    · rw [hother he]
      exact h.took r t' hq
  · intro t' r hl'
    by_cases he : t' = t
    · rw [he, hself] at hl'
      rw [he]
      exact hl r hl'
    · rw [hother he] at hl'
      exact h.leases t' r hl'
  · intro t' r hl'
    by_cases he : t' = t
    · rw [he, hself] at hl'
      rw [he]
      exact hb r hl'
    · rw [hother he] at hl'
      exact h.told t' r hl'

private theorem Watched.letGo (h : s.Watched N) (phase : TaskPhase) (hn : s.tasks t ≠ .new)
    (ho : phase.owned = none) (ht : ∀ r, (s.tasks t).Took r → phase.Took r) :
    (s.setTask t phase).Watched N := by
  obtain ⟨hm, hl⟩ := TaskPhase.unowned ho
  apply h.setTask phase hn
  · intro r hr
    rw [ho] at hr
    cases hr
  · intro r hr
    rw [hm] at hr
    cases hr
  · exact fun r hq => ht r (h.took r t hq)
  · intro r hr
    rw [hl] at hr
    cases hr
  · intro r hr
    rw [hl] at hr
    cases hr

private theorem Watched.moveOn (h : s.Watched N) (hr : (s.tasks t).owned = some r)
    (ho : phase.owned = some r) (hm : phase.maker = none ∨ phase.maker = (s.tasks t).maker)
    (ht : ∀ r, (s.tasks t).Took r → phase.Took r)
    (hl : phase.lease = none ∨ phase.lease = (s.tasks t).lease) : (s.setTask t phase).Watched N := by
  apply h.setTask phase (ne_new_of_owned hr)
  · intro r' hr'
    rw [ho] at hr'
    cases hr'
    refine ⟨h.below t r hr, fun t' hne hm' => ?_⟩
    exact (h.fresh t' r hm').2 t (Ne.symm hne) hr
  · intro r' hr'
    rcases hm with hm | hm
    · rw [hm] at hr'
      cases hr'
    · rw [hm] at hr'
      exact h.fresh t r' hr'
  · exact fun r hq => ht r (h.took r t hq)
  · intro r' hr'
    rcases hl with hl | hl
    · rw [hl] at hr'
      cases hr'
    · rw [hl] at hr'
      exact h.leases t r' hr'
  · intro r' hr'
    rcases hl with hl | hl
    · rw [hl] at hr'
      cases hr'
    · rw [hl] at hr'
      exact h.told t r' hr'

private theorem Watched.spawn (h : s.Watched N) (ho : phase.owned = none) :
    (s.spawn phase).Watched N := by
  obtain ⟨hm, hl⟩ := TaskPhase.unowned ho
  have hself : (s.spawn phase).tasks s.spawned = phase := by simp [PoolSystem.spawn]
  have hother {t : Nat} (he : t ≠ s.spawned) : (s.spawn phase).tasks t = s.tasks t := by
    simp [PoolSystem.spawn, he]
  have hfree {t r : Nat} (hr : ((s.spawn phase).tasks t).owned = some r) : t ≠ s.spawned := by
    intro he
    rw [he, hself, ho] at hr
    cases hr
  constructor
  · exact h.runtimes
  · exact h.resident
  · intro t r hr
    have he := hfree hr
    rw [hother he] at hr
    exact h.below t r hr
  · intro t hb
    have hlt : s.spawned < t := hb
    rw [hother (Nat.ne_of_gt hlt)]
    exact h.unspawned t (Nat.le_of_lt hlt)
  · intro t r hr
    have he := hfree (TaskPhase.owned_of_maker hr)
    rw [hother he] at hr
    refine ⟨(h.fresh t r hr).1, fun t' hne hr' => ?_⟩
    have he' := hfree hr'
    rw [hother he'] at hr'
    exact (h.fresh t r hr).2 t' hne hr'
  · intro r t hq
    have ht := h.took r t hq
    have he : t ≠ s.spawned := by
      intro he
      rw [he, h.unspawned _ (Nat.le_refl _)] at ht
      exact ht
    rw [hother he]
    exact ht
  · intro t r hr
    have he := hfree (TaskPhase.owned_of_lease hr).1
    rw [hother he] at hr
    exact h.leases t r hr
  · intro t r hr
    have he := hfree (TaskPhase.owned_of_lease hr).1
    rw [hother he] at hr
    exact h.told t r hr

/-- A runtime leaves the pool; it is not one that a task has just made. -/
theorem Watched.evict (h : s.Watched N) (hr : ∀ t, (s.tasks t).maker ≠ some r) : (s.evict r).Watched N := by
  have hpool : (s.setPool (s.pool.remove r)).Watched N := by
    apply h.setPool
    intro k r' hk
    simp only [SessionRuntimePool.remove, Dict.lookup_popValue] at hk
    exact h.resident k r' hk.1
  have hgone : ∀ k, (s.setPool (s.pool.remove r)).pool.runtimes.lookup k ≠ some r := by
    intro k hk
    simp only [PoolSystem.setPool, SessionRuntimePool.remove, Dict.lookup_popValue] at hk
    exact hk.2 rfl
  obtain ⟨hqueue, hclose⟩ : (s.heap r).dismiss.activeQueue = (s.heap r).activeQueue ∧
      ((s.heap r).closeTask = .done → (s.heap r).dismiss.closeTask = .done) := by
    refine ⟨?_, fun hc => ?_⟩
    · unfold SessionRuntime.dismiss
      rw [SessionRuntime.requestClose_eq]
    · simp [SessionRuntime.dismiss, SessionRuntime.requestClose, hc]
  apply hpool.setRuntime (h.runtimes r).dismiss
  · exact fun k hk => absurd hk (hgone k)
  · exact fun t hm => absurd hm (hr t)
  · intro t hq
    rw [hqueue] at hq
    exact h.took r t hq
  · intro t hl
    rw [hqueue]
    exact (h.leases t r hl).imp_right hclose
  · intro t _ hres
    cases hres

theorem Watched.known (h : s.Watched N) (hr : (s.heap r).resident = true) (t : Nat) :
    (s.tasks t).maker ≠ some r := by
  intro hm
  rw [(h.fresh t r hm).1.resident] at hr
  cases hr

private theorem Watched.evictAll (h : s.Watched N) {victims : List Nat}
    (hv : ∀ r ∈ victims, ∀ t, (s.tasks t).maker ≠ some r) : (s.evictAll victims).Watched N := by
  induction victims generalizing s with
  | nil => exact h
  | cons v rest ih =>
    apply ih (h.evict (hv v List.mem_cons_self))
    exact fun r hr => hv r (List.mem_cons_of_mem _ hr)

theorem Watched.retireLater (h : s.Watched N) (r : Nat) : (s.setRuntime r (s.heap r).retireLater).Watched N :=
  h.same rfl rfl rfl rfl rfl rfl rfl

private theorem Watched.retireBusy (h : s.Watched N) (busy : SessionRuntime → Bool) :
    (s.retireBusy busy).Watched N := by
  have hcase (r : Nat) : (s.retireBusy busy).heap r = s.heap r ∨
      (s.retireBusy busy).heap r = (s.heap r).retireLater := by
    simp only [PoolSystem.retireBusy]
    split
    · exact .inr rfl
    · exact .inl rfl
  constructor
  · intro r
    rcases hcase r with hc | hc
    · rw [hc]
      exact h.runtimes r
    · rw [hc]
      exact (h.runtimes r).same rfl rfl rfl rfl rfl rfl rfl
  · intro k r hk
    rcases hcase r with hc | hc
    · rw [hc]
      exact h.resident k r hk
    · rw [hc]
      exact h.resident k r hk
  · exact h.below
  · exact h.unspawned
  · intro t r hm
    refine ⟨?_, (h.fresh t r hm).2⟩
    rcases hcase r with hc | hc
    · rw [hc]
      exact (h.fresh t r hm).1
    · rw [hc]
      exact (h.fresh t r hm).1.same rfl rfl rfl rfl rfl rfl
  · intro r t hq
    rcases hcase r with hc | hc
    · rw [hc] at hq
      exact h.took r t hq
    · rw [hc] at hq
      exact h.took r t hq
  · intro t r hl
    rcases hcase r with hc | hc
    · rw [hc]
      exact h.leases t r hl
    · rw [hc]
      exact h.leases t r hl
  · intro t r hl
    rcases hcase r with hc | hc
    · rw [hc]
      exact h.told t r hl
    · rw [hc]
      exact h.told t r hl

private theorem Watched.startRuntime (h : s.Watched N) {args : AcquireArgs} (now : Nat) (hn : s.tasks t ≠ .new)
    (ht : ∀ r, ¬ (s.tasks t).Took r) : (s.startRuntime t args now).Watched N := by
  have hnew : (s.allocate (.create args.key args.options now)).heap s.allocated =
      .create args.key args.options now := by
    simp [PoolSystem.allocate]
  have hold {r : Nat} (hne : r ≠ s.allocated) :
      (s.allocate (.create args.key args.options now)).heap r = s.heap r := by
    simp [PoolSystem.allocate, hne]
  have hmade : (s.allocate (.create args.key args.options now)).Watched N := by
    constructor
    · intro r
      by_cases he : r = s.allocated
      · rw [he, hnew]
        exact SessionRuntime.tended_of_absent rfl fun hd => by cases hd
      · rw [hold he]
        exact h.runtimes r
    · intro k r hk
      obtain ⟨hres, hlt⟩ := h.resident k r hk
      rw [hold (Nat.ne_of_lt hlt)]
      exact ⟨hres, Nat.lt_succ_of_lt hlt⟩
    · exact fun t' r hr => Nat.lt_succ_of_lt (h.below t' r hr)
    · exact h.unspawned
    · intro t' r hm
      rw [hold (Nat.ne_of_lt (h.below t' r (TaskPhase.owned_of_maker hm)))]
      exact h.fresh t' r hm
    · intro r t' hq
      by_cases he : r = s.allocated
      · rw [he, hnew] at hq
        cases hq
      · rw [hold he] at hq
        exact h.took r t' hq
    · intro t' r hl
      rw [hold (Nat.ne_of_lt (h.below t' r (TaskPhase.owned_of_lease hl).1))]
      exact h.leases t' r hl
    · intro t' r hl
      rw [hold (Nat.ne_of_lt (h.below t' r (TaskPhase.owned_of_lease hl).1))]
      exact h.told t' r hl
  have hunknown (t' : Nat) : (s.tasks t').owned ≠ some s.allocated := by
    intro hr
    exact absurd (h.below t' _ hr) (Nat.lt_irrefl _)
  apply hmade.setTask _ hn
  · intro r hr
    cases hr
    refine ⟨Nat.lt_succ_self _, fun t' _ hm => ?_⟩
    exact hunknown t' (TaskPhase.owned_of_maker hm)
  · intro r hr
    cases hr
    rw [hnew]
    exact ⟨⟨rfl, rfl, rfl, rfl, RuntimeState.noConfusion, ReceiverTask.noConfusion⟩, fun t' _ => hunknown t'⟩
  · exact fun r hq => absurd (hmade.took r t hq) (ht r)
  · intro r hr
    cases hr
  · intro r hr
    cases hr

end Primitives

section Capacity

variable {N : Nat → Prop} {s : PoolSystem}

private theorem Watched.known_of_expendables (h : s.Watched N) {preserve : Option String}
    (hr : r ∈ s.pool.expendables s.heap preserve) (t : Nat) : (s.tasks t).maker ≠ some r := by
  obtain ⟨⟨k, hk⟩, -⟩ := SessionRuntimePool.mem_expendables hr
  exact h.known (h.resident k r hk).1 t

private theorem Watched.refresh (h : s.Watched N) (memory : RuntimeMemorySnapshot) (preserve : Option String) :
    (s.refresh memory preserve).Watched N := by
  have hp : (s.setPool (s.pool.resized memory)).Watched N := h.setPool h.resident
  have hv (r : Nat) (hr : r ∈ (s.pool.resized memory).refreshVictims s.heap memory preserve) :
      ∀ t, (s.tasks t).maker ≠ some r :=
    hp.known_of_expendables (SessionRuntimePool.mem_refreshVictims hr)
  simp only [PoolSystem.refresh]
  split
  · exact (hp.retireBusy _).evictAll hv
  · exact hp.evictAll hv

private theorem Watched.configure (h : s.Watched N) (capacity : Nat) : (s.configure capacity).Watched N := by
  have hp : (s.setPool { s.pool with
      capacityOverride := true, activeCapacity := capacity, capacity := capacity }).Watched N :=
    h.setPool h.resident
  have hv : ((s.setPool { s.pool with
      capacityOverride := true, activeCapacity := capacity, capacity := capacity }).evictAll
        (SessionRuntimePool.overflowVictims capacity s.pool.size 0
          (s.pool.expendables s.heap none))).Watched N :=
    hp.evictAll fun r hr => h.known_of_expendables (SessionRuntimePool.mem_overflowVictims hr)
  simp only [PoolSystem.configure]
  split
  · exact Watched.retireBusy hv _
  · exact hv

private theorem Watched.recycleAll (h : s.Watched N) : s.recycleAll.Watched N := by
  apply (h.retireBusy _).evictAll
  intro r hr
  obtain ⟨hmem, -⟩ := List.mem_filter.mp hr
  obtain ⟨k, hk⟩ := Dict.mem_values.mp hmem
  exact h.known (h.resident k r hk).1

theorem Watched.reserveSession (h : s.Watched N) (key : String) (live cancelActive : Bool) :
    (s.reserveSession key live cancelActive).Watched N := by
  have hp : (s.setPool { s.pool with
      maintenanceKeys := insert key s.pool.maintenanceKeys }).Watched N := h.setPool h.resident
  simp only [PoolSystem.reserveSession]
  split
  · exact h
  split
  · exact h
  split
  · exact hp
  · rename_i r hr
    split
    · exact (hp.retireLater r).evict (h.known (h.resident key r hr).1)
    · exact hp.retireLater r

private theorem Watched.reserveSweep (h : s.Watched N) (key : String) (expired : Bool) :
    (s.reserveSweep key expired).Watched N := by
  simp only [PoolSystem.reserveSweep]
  split
  · exact h
  · rename_i r hr
    split
    · exact (h.retireLater r).evict (h.known (h.resident key r hr).1)
    · exact h.retireLater r

end Capacity

variable {now : Nat} {memory : RuntimeMemorySnapshot}

section Turns

variable {N : Nat → Prop} {s : PoolSystem} {t r : Nat} {args : AcquireArgs}

private theorem Watched.requestClose (h : s.Watched N) (hr : (s.heap r).resident = false)
    (hm : ∀ t, (s.tasks t).maker ≠ some r) :
    (s.setRuntime r (s.heap r).requestClose).Watched N := by
  have hqueue : (s.heap r).requestClose.activeQueue = (s.heap r).activeQueue := by
    rw [SessionRuntime.requestClose_eq]
  apply h.setRuntime ((h.runtimes r).requestClose hr)
  · intro k hk
    rw [(h.resident k r hk).1] at hr
    cases hr
  · exact fun t' hm' => absurd hm' (hm t')
  · intro t' hq
    rw [hqueue] at hq
    exact h.took r t' hq
  · intro t' hl
    rw [hqueue]
    refine (h.leases t' r hl).imp_right fun hc => ?_
    simp [SessionRuntime.requestClose, hc]
  · intro t' _ hres
    rw [SessionRuntime.requestClose_eq] at hres
    rw [show (s.heap r).resident = true from hres] at hr
    cases hr

variable {fresh : Bool}

private theorem Watched.takeTurn (h : s.Watched N) (ht : s.tasks t = .ended)
    (hfirst : ∀ r, (s.heap r).activeQueue ≠ some t) (hlt : r < s.allocated)
    (hs : (s.heap r).state = .idle ∨ (s.heap r).state = .starting)
    (hq : (s.heap r).activeQueue = none) (hm : ∀ t, (s.tasks t).maker ≠ some r)
    (hf : fresh = true → (s.heap r).Fresh ∧ ∀ t, (s.tasks t).owned ≠ some r) (now : Nat) :
    (s.takeTurn t args r fresh now).Watched N := by
  have hn : s.tasks t ≠ .new := by simp [ht]
  have hown : (s.setRuntime r ((s.heap r).ownTurn t args.binding args.mode now)).Watched N := by
    apply h.setRuntime ((h.runtimes r).ownTurn hs t args.binding args.mode now)
    · exact fun k hk => (h.resident k r hk).1
    · exact fun t' hm' => absurd hm' (hm t')
    · intro t' hq'
      cases hq'
      rw [ht]
      trivial
    · intro t' hl
      rcases h.leases t' r hl with hq' | hc
      · rw [hq] at hq'
        cases hq'
      · exact .inr hc
    · exact fun t' hl => h.told t' r hl
  -- no other runtime has the queue of the task
  have hqueue (r' : Nat) (hne : r' ≠ r) :
      ((s.setRuntime r ((s.heap r).ownTurn t args.binding args.mode now)).heap r').activeQueue ≠
        some t := by
    simpa [PoolSystem.setRuntime, hne] using hfirst r'
  simp only [PoolSystem.takeTurn]
  split
  · cases fresh with
    | true =>
      have hclosed := hown.requestClose (r := r)
        (by rw [setRuntime_heap_self]; exact (hf rfl).1.resident) hm
      exact hclosed.letGo _ hn rfl fun _ _ => trivial
    | false => exact (hown.evict hm).letGo _ hn rfl fun _ _ => trivial
  split
  · rename_i hfresh
    obtain ⟨hv, hfree⟩ := hf hfresh
    have hp : ((s.setRuntime r ((s.heap r).ownTurn t args.binding args.mode now)).setPool
        (s.pool.discardStarting args.key)).Watched N := hown.setPool hown.resident
    simp only [PoolSystem.register]
    split
    · have hclosed := hp.requestClose (r := r)
        (by simp only [PoolSystem.setPool]; rw [setRuntime_heap_self]; exact hv.resident) hm
      exact hclosed.letGo _ hn rfl fun _ _ => trivial
    · have hin (late : Bool) : ((s.setRuntime r ((s.heap r).ownTurn t args.binding args.mode
          now)).setRuntime r (((s.heap r).ownTurn t args.binding args.mode now).moveIn
            late)).Watched N := by
        apply hown.setRuntime (hv.moveIn hs t args.binding args.mode now late)
        · exact fun _ _ => rfl
        · exact fun t' hm' => absurd hm' (hm t')
        · intro t' hq'
          cases hq'
          change (s.tasks t).Took r
          rw [ht]
          trivial
        · exact fun t' hl => absurd (TaskPhase.owned_of_lease hl).1 (hfree t')
        · exact fun t' hl => absurd (TaskPhase.owned_of_lease hl).1 (hfree t')
      have henter (late : Bool) : (((s.setRuntime r ((s.heap r).ownTurn t args.binding args.mode
          now)).setRuntime r (((s.heap r).ownTurn t args.binding args.mode now).moveIn
            late)).setPool ((s.pool.discardStarting args.key).enter args.key r)).Watched N := by
        apply (hin late).setPool
        intro k r' hk
        simp only [SessionRuntimePool.enter] at hk
        by_cases hkk : k = args.key
        · rw [hkk, AList.lookup_insert] at hk
          cases hk
          rw [setRuntime_heap_self]
          exact ⟨rfl, hlt⟩
        · rw [AList.lookup_insert_ne hkk] at hk
          exact (hin late).resident k r' hk
      simp only [PoolSystem.setPool, setRuntime_heap_self]
      apply Watched.setTask (henter _) _ hn
      · intro r' hr
        cases hr
        exact ⟨hlt, fun t' _ => hm t'⟩
      · intro r' hr
        cases hr
      · intro r' hq'
        by_contra hne
        have hne' : r' ≠ r := Ne.symm hne
        apply hqueue r' hne'
        simpa [PoolSystem.setPool, PoolSystem.setRuntime, hne'] using hq'
      · intro r' hl
        cases hl
        simp only [PoolSystem.setPool]
        rw [setRuntime_heap_self]
        exact .inl rfl
      · intro r' hl _ hbegun
        cases hl
        simp only [PoolSystem.setPool] at hbegun
        rw [setRuntime_heap_self] at hbegun
        exact absurd hbegun (SessionRuntime.not_closeBegun hv.closeTask)
  · apply hown.setTask _ hn
    · intro r' hr
      cases hr
      exact ⟨hlt, fun t' _ => hm t'⟩
    · intro r' hr
      cases hr
    · intro r' hq'
      by_contra hne
      exact hqueue r' (Ne.symm hne) hq'
    · intro r' hl
      cases hl
      rw [setRuntime_heap_self]
      exact .inl rfl
    · intro r' hl hres hbegun
      cases hl
      rw [setRuntime_heap_self] at hres hbegun
      have habsent := ((h.runtimes r).untouched hres hs).2.1
      exact absurd hbegun (SessionRuntime.not_closeBegun habsent)

private theorem Watched.takeSwitched (h : s.Watched N) (ht : s.tasks t = .switching args r fresh)
    (hs : (s.heap r).state = .idle ∨ (s.heap r).state = .starting)
    (hq : (s.heap r).activeQueue = none) (now : Nat) : (s.takeTurn t args r fresh now).Watched N := by
  have hr : (s.tasks t).owned = some r := by rw [ht]; rfl
  have hn := ne_new_of_owned hr
  have hself : (s.setTask t .ended).tasks t = .ended := by simp [PoolSystem.setTask]
  have hother {t' : Nat} (he : t' ≠ t) : (s.setTask t .ended).tasks t' = s.tasks t' := by
    simp [PoolSystem.setTask, he]
  have hover : (s.setTask t .ended).Watched N := h.letGo _ hn rfl fun _ _ => trivial
  rw [← takeTurn_setTask s t args r fresh now .ended]
  apply hover.takeTurn hself
  · intro r' hq'
    have htook := h.took r' t hq'
    rw [ht] at htook
    exact htook
  · exact h.below t r hr
  · exact hs
  · exact hq
  · intro t' hm
    by_cases he : t' = t
    · rw [he, hself] at hm
      cases hm
    · rw [hother he] at hm
      exact (h.fresh t' r hm).2 t (Ne.symm he) hr
  · rintro rfl
    obtain ⟨hv, hfree⟩ := h.fresh t r (by rw [ht]; rfl)
    refine ⟨hv, fun t' hr' => ?_⟩
    by_cases he : t' = t
    · rw [he, hself] at hr'
      cases hr'
    · rw [hother he] at hr'
      exact hfree t' he hr'

private theorem Watched.beginTurn (h : (s.setTask t (.switching args r fresh)).Watched N)
    (hs : (s.heap r).state = .idle ∨ (s.heap r).state = .starting)
    (hq : (s.heap r).activeQueue = none) (now : Nat) : (s.beginTurn t args r fresh now).Watched N :=
  beginTurn_cases (P := fun s => s.Watched N) h fun ht => h.takeSwitched ht hs hq now

private theorem Watched.failOwn (h : s.Watched N) (hr : (s.tasks t).owned = some r)
    (hm : fresh = true → (s.tasks t).maker = some r) : (s.failStart t args r fresh).Watched N := by
  have hn := ne_new_of_owned hr
  have hover : (s.setTask t .ended).Watched N := h.letGo _ hn rfl fun _ _ => trivial
  have hn' : (s.setTask t .ended).tasks t ≠ .new := by simp [PoolSystem.setTask]
  have hmaker (t' : Nat) : ((s.setTask t .ended).tasks t').maker ≠ some r := by
    by_cases he : t' = t
    · simp [PoolSystem.setTask, he, TaskPhase.maker]
    · intro hm'
      have hm' : (s.tasks t').maker = some r := by simpa [PoolSystem.setTask, he] using hm'
      exact (h.fresh t' r hm').2 t (Ne.symm he) hr
  cases fresh with
  | true =>
    have hclosed := hover.requestClose (r := r) (h.fresh t r (hm rfl)).1.resident hmaker
    have hover' := hclosed.letGo (.failing args.key r) hn' rfl fun _ _ => trivial
    simpa [PoolSystem.failStart, PoolSystem.setTask, PoolSystem.setRuntime] using hover'
  | false =>
    have hover' := (hover.evict hmaker).letGo (.closing r) hn' rfl fun _ _ => trivial
    simpa [PoolSystem.failStart, PoolSystem.setTask, PoolSystem.setRuntime, PoolSystem.evict,
      PoolSystem.setPool] using hover'

private theorem Watched.reserve (h : s.Watched N)
    (hadm : s.pool.admission s.heap args.key args.options memory = .reuse r) (writes : Bool) :
    (s.setRuntime r ((s.heap r).reserve writes)).Watched N ∧ (s.heap r).resident = true ∧
      r < s.allocated ∧ (s.heap r).activeQueue = none := by
  obtain ⟨hclear, hlookup, hh, -⟩ := SessionRuntimePool.admission_backed hadm nofun
  obtain ⟨hres, hlt⟩ := h.resident args.key r hlookup
  have he := hclear.idle r hlookup hh
  simp only [SessionRuntime.evictable, Bool.and_eq_true, decide_eq_true_eq, Option.isNone_iff_eq_none] at he
  obtain ⟨hlive, hclose, hretire⟩ := (h.runtimes r).untouched hres (.inl he.1)
  refine ⟨?_, hres, hlt, he.2⟩
  apply h.keeps
  · constructor
    · intro hd
      cases hd
    · exact fun _ hended => absurd hended hlive
    · exact fun _ _ => ⟨hclose, hretire, RuntimeState.noConfusion⟩
    · intro _ hdone
      have hdone : (s.heap r).closeTask = .done := hdone
      rw [hclose] at hdone
      cases hdone
  · rfl
  · intro hf
    rw [hf.resident] at hres
    cases hres
  · rfl
  · exact id
  · exact id

private theorem Watched.enter (h : s.Watched N) {deferred : Bool}
    (hn : s.tasks t ≠ .new) (ht : ∀ r, ¬ (s.tasks t).Took r) :
    (s.enter t args memory deferred now).Watched N := by
  unfold PoolSystem.enter
  split
  · exact h.letGo _ hn rfl fun _ _ => trivial
  · rename_i r hadm
    obtain ⟨hreserved, hres, hlt, hq⟩ := h.reserve hadm (args.mode ≠ idlePermissionMode)
    have hswitch : ((s.setRuntime r ((s.heap r).reserve (args.mode ≠ idlePermissionMode))).setTask t
        (.switching args r false)).Watched N := by
      apply hreserved.setTask _ hn
      · intro r' hr
        cases hr
        exact ⟨hlt, fun t' _ => h.known hres t'⟩
      · intro r' hm
        cases hm
      · exact fun r' hq' => absurd (hreserved.took r' t hq') (ht r')
      · intro r' hl
        cases hl
      · intro r' hl
        cases hl
    simp only
    split
    · exact (hreserved.evict (h.known hres)).letGo _ hn rfl fun _ _ => trivial
    · apply hswitch.beginTurn
      · rw [setRuntime_heap_self]
        exact .inr rfl
      · rw [setRuntime_heap_self]
        exact hq
  · rename_i victim hadm
    have hknown : ∀ t', (s.tasks t').maker ≠ some victim := by
      obtain ⟨-, hlookup | ⟨-, -, hv⟩⟩ := SessionRuntimePool.admission_backed hadm nofun
      · exact h.known (h.resident _ victim hlookup).1
      · exact h.known_of_expendables hv
    have hevicted := h.evict hknown
    have hadd : ((s.evict victim).setPool
        ((s.evict victim).pool.addStarting args.key t args.options)).Watched N :=
      hevicted.setPool hevicted.resident
    exact hadd.letGo _ hn rfl fun r' htook => absurd htook (ht r')
  · have hadd : (s.setPool (s.pool.addStarting args.key t args.options)).Watched N :=
      h.setPool h.resident
    exact hadd.startRuntime now hn ht

private theorem Watched.remap (h : s.Watched N) (sessionId : String) : (s.remap r sessionId).Watched N := by
  unfold PoolSystem.remap
  split
  · exact h
  rename_i hgone
  split
  · have hv := h.runtimes r
    apply h.keeps
    · exact ⟨fun _ => rfl, fun hr he => ⟨(hv.ended hr he).1, rfl, (hv.ended hr he).2.2⟩, hv.reading, hv.closed⟩
    · rfl
    · exact fun hf => hf.same rfl rfl rfl rfl rfl rfl
    · rfl
    · exact id
    · exact id
  · simp only [not_or, Decidable.not_not] at hgone
    obtain ⟨hres, hlt⟩ := h.resident _ r hgone.2
    have hrenamed : (s.setRuntime r ((s.heap r).rename sessionId)).Watched N :=
      h.same rfl rfl rfl rfl rfl rfl rfl
    apply hrenamed.setPool
    intro k r' hk
    simp only [PoolSystem.setPool, SessionRuntimePool.rekey] at hk
    by_cases hkk : k = sessionId
    · rw [hkk, AList.lookup_insert] at hk
      cases hk
      rw [setRuntime_heap_self]
      exact ⟨hres, hlt⟩
    · rw [AList.lookup_insert_ne hkk] at hk
      by_cases hold : k = (s.heap r).key
      · rw [hold, AList.lookup_erase] at hk
        cases hk
      · rw [AList.lookup_erase_ne hold] at hk
        exact hrenamed.resident k r' hk

theorem Watched.finishRelease (h : s.Watched N) {mode : PermissionMode} {rargs : ReleaseArgs}
    (ht : s.tasks t = .releasing r mode rargs) (safe reset : Bool) (unread : List UnreadFrame)
    (now : Nat) : (s.finishRelease t r rargs safe reset unread now).Watched N := by
  have hr : (s.tasks t).owned = some r := by rw [ht]; rfl
  have hlease : (s.tasks t).lease = some r := by rw [ht]; rfl
  have hn := ne_new_of_owned hr
  have hover : (s.setTask t .ended).Watched N := h.letGo _ hn rfl fun _ _ => trivial
  have hn' : (s.setTask t .ended).tasks t ≠ .new := by simp [PoolSystem.setTask]
  have hother {t' : Nat} (he : t' ≠ t) : (s.setTask t .ended).tasks t' = s.tasks t' := by
    simp [PoolSystem.setTask, he]
  have hmaker (t' : Nat) : ((s.setTask t .ended).tasks t').maker ≠ some r := by
    intro hm
    by_cases he : t' = t
    · simp [PoolSystem.setTask, he, TaskPhase.maker] at hm
    · rw [hother he] at hm
      exact (h.fresh t' r hm).2 t (Ne.symm he) hr
  -- another lease on the runtime is left over from a close
  have hdone (t' : Nat) (hl : ((s.setTask t .ended).tasks t').lease = some r) :
      (s.heap r).closeTask = .done := by
    by_cases he : t' = t
    · simp [PoolSystem.setTask, he, TaskPhase.lease] at hl
    · rw [hother he] at hl
      rcases h.leases t r hlease with hq | hc
      · rcases h.leases t' r hl with hq' | hc
        · rw [hq] at hq'
          exact absurd (Option.some.inj hq').symm he
        · exact hc
      · exact hc
  have hsettle (w : SessionRuntime) (hw : w.healthy = true → w.Tended)
      (hdead : w.state = .dead → w.healthyFlag = false)
      (hres : w.resident = (s.heap r).resident) (hclose : w.closeTask = (s.heap r).closeTask)
      (hqueue : w.activeQueue = none) :
      ((s.setRuntime r w).settleRelease t r rargs.keepWarm).Watched N := by
    unfold PoolSystem.settleRelease
    split
    · have hevicted := hover.evict hmaker
      have hleft : (((s.setTask t .ended).evict r).setRuntime r w.dismiss).Watched N := by
        apply hevicted.setRuntime
        · apply SessionRuntime.tended_of_absent rfl
          unfold SessionRuntime.dismiss
          rw [SessionRuntime.requestClose_eq]
          exact hdead
        · intro k hk
          have hgone := (hevicted.resident k r hk).1
          simp [PoolSystem.evict, SessionRuntime.dismiss] at hgone
        · exact fun t' hm => absurd hm (hmaker t')
        · intro t' hq
          unfold SessionRuntime.dismiss at hq
          rw [SessionRuntime.requestClose_eq] at hq
          rw [show w.activeQueue = none from hqueue] at hq
          cases hq
        · intro t' hl
          right
          simp [SessionRuntime.dismiss, SessionRuntime.requestClose, hclose, hdone t' hl]
        · intro t' _ hgone
          cases hgone
      have hover' := hleft.letGo (.closing r) hn' rfl fun _ _ => trivial
      simpa [PoolSystem.evict, PoolSystem.setRuntime, PoolSystem.setTask, PoolSystem.setPool]
        using hover'
    · rename_i hkept
      simp only [Bool.or_eq_true, not_or, Bool.not_eq_true', setRuntime_heap_self] at hkept
      have hhealthy : w.healthy = true := by simpa using hkept.1.1.2
      have hkept : ((s.setTask t .ended).setRuntime r w).Watched N := by
        apply hover.setRuntime (hw hhealthy)
        · intro k hk
          rw [hres]
          exact (h.resident k r hk).1
        · exact fun t' hm => absurd hm (hmaker t')
        · intro t' hq
          rw [hqueue] at hq
          cases hq
        · exact fun t' hl => .inr (hclose.trans (hdone t' hl))
        · intro t' hl hres' hbegun
          rw [hres] at hres'
          rw [SessionRuntime.closeBegun, hclose] at hbegun
          exact hover.told t' r hl hres' hbegun
      exact hkept
  have hfinish (v : SessionRuntime) (hv : v.Tended) (hres : v.resident = (s.heap r).resident)
      (hclose : v.closeTask = (s.heap r).closeTask) (unread : List (PeerEnv × Frame))
      (tainted : Bool) : ((s.setRuntime r (v.finishTurn unread tainted rargs.keepWarm
        now)).settleRelease t r rargs.keepWarm).Watched N := by
    apply hsettle
    · exact hv.finishTurn
    · exact SessionRuntime.finishTurn_dead hv.dead
    · rw [SessionRuntime.finishTurn_eq]
      exact hres
    · rw [SessionRuntime.finishTurn_eq]
      exact hclose
    · rw [SessionRuntime.finishTurn_eq]
  simp only [PoolSystem.finishRelease]
  apply hfinish
  · split
    · exact (h.runtimes r).same rfl rfl rfl rfl rfl rfl rfl
    · exact h.runtimes r
  · split <;> rfl
  · split <;> rfl

end Turns

section Steps

variable {N : Nat → Prop} {s s' : PoolSystem}

private theorem Watched.evolve (h : s.Watched N) {e : RuntimeEvent}
    (hb : e = .closeBegins → ∀ t, (s.tasks t).lease = some r → N t)
    (hv : (s.heap r).evolve (e.withAdmission (s.pool.admitsPeer s.heap r memory)) = some v) :
    (s.setRuntime r v).Watched N := by
  have hev := SessionRuntime.evolves_evolve hv
  apply h.setRuntime ((h.runtimes r).evolve hv)
  · intro k hk
    rw [hev.resident]
    exact (h.resident k r hk).1
  · exact fun t hm => (h.fresh t r hm).1.evolve hv
  · exact fun t hq => h.took r t (hev.turn t hq).1
  · exact fun t hl => SessionRuntime.evolve_queue hv (h.leases t r hl)
  · intro t hl hres hbegun
    rw [hev.resident] at hres
    rcases SessionRuntime.evolve_closeBegun hv hbegun with hbegun | he
    · exact h.told t r hl hres hbegun
    · refine hb ?_ t hl
      cases e with
      | closeBegins => rfl
      | toolCall | toolReturn | closeUnbound | closeDisconnected | closeJoined | frame
      | receiverFails | receiverEnds => cases he

private theorem Watched.discardKey (h : s.Watched N) {t : Nat} {key : String} (hk : (s.tasks t).held = some key) :
    (s.discardKey t key).Watched N := by
  have hp : (s.setPool (s.pool.discardStarting key)).Watched N := h.setPool h.resident
  exact hp.letGo _ (ne_new_of_held hk) rfl fun _ _ => trivial

private theorem Watched.connected (h : s.Watched N) {t r : Nat} {args : AcquireArgs} (now : Nat)
    (hp : s.tasks t = .connecting args r) :
    ((s.setRuntime r ((s.heap r).connected now)).beginTurn t args r true now).Watched N := by
  have hr : (s.tasks t).owned = some r := by rw [hp]; rfl
  have hm : (s.tasks t).maker = some r := by rw [hp]; rfl
  obtain ⟨hv, -⟩ := h.fresh t r hm
  have hc : (s.setRuntime r ((s.heap r).connected now)).Watched N := by
    apply h.keeps
    · exact SessionRuntime.tended_of_absent hv.resident fun hd => by cases hd
    · rfl
    · exact fun hf => ⟨hf.resident, hf.closeTask, hf.retireTask, hf.activeQueue,
        RuntimeState.noConfusion, ReceiverTask.noConfusion⟩
    · rfl
    · exact id
    · exact id
  have hswitch : ((s.setRuntime r ((s.heap r).connected now)).setTask t
      (.switching args r true)).Watched N := by
    refine hc.moveOn hr rfl (.inr hm.symm) (fun r' htook => ?_) (.inl rfl)
    change (s.tasks t).Took r' at htook
    rw [hp] at htook
    exact htook
  apply hswitch.beginTurn
  · rw [setRuntime_heap_self]
    exact .inl rfl
  · rw [setRuntime_heap_self]
    exact hv.activeQueue

private theorem Watched.switched (h : s.Watched N) {t : Nat} (hs : s.step (.switched t now) = some s') :
    s'.Watched N := by
  simp only [PoolSystem.step] at hs
  split at hs
  · rename_i args r fresh hp
    have hr : (s.tasks t).owned = some r := by rw [hp]; rfl
    have hm : (s.setRuntime r ((s.heap r).setPermissionMode args.mode)).Watched N :=
      h.same rfl rfl rfl rfl rfl rfl rfl
    split at hs <;> cases hs
    · refine hm.moveOn hr rfl (.inr ?_) (fun r' htook => ?_) (.inl rfl)
      · change _ = (s.tasks t).maker
        rw [hp]
        cases fresh <;> rfl
      · change (s.tasks t).Took r' at htook
        rw [hp] at htook
        exact htook
    · rename_i hblocked
      simp only [SessionRuntime.startBlocked, Bool.or_eq_true, Bool.not_eq_true',
        Option.isSome_iff_ne_none, not_or, Bool.not_eq_false, decide_eq_true_eq, ne_eq,
        Decidable.not_not] at hblocked
      exact hm.takeSwitched hp hblocked.1 hblocked.2 now
  · cases hs

private theorem Watched.retire (h : s.Watched N) (hretire : (s.heap r).retireTask = .scheduled) :
    (s.setRuntime r ((s.heap r).requestClose.setRetireTask .closing)).Watched N := by
  have hv := h.runtimes r
  have hended (hr : (s.heap r).resident = true) : (s.heap r).receiver = .ended := by
    by_contra hlive
    rw [(hv.reading hr hlive).2.1] at hretire
    cases hretire
  have hclose : (s.heap r).requestClose.closeTask ≠ .absent := by
    unfold SessionRuntime.requestClose
    split
    · exact CloseTask.noConfusion
    · assumption
  have hdone (hc : (s.heap r).requestClose.closeTask = .done) : (s.heap r).closeTask = .done := by
    unfold SessionRuntime.requestClose at hc
    split at hc
    · cases hc
    · exact hc
  have hnew : ((s.heap r).requestClose.setRetireTask .closing).Tended := by
    rw [SessionRuntime.requestClose_eq] at hclose hdone ⊢
    constructor
    · exact hv.dead
    · exact fun hr he => ⟨(hv.ended hr he).1, (hv.ended hr he).2.1, .inr hclose⟩
    · exact fun hr hlive => absurd (hended hr) hlive
    · exact fun hr hc => hv.closed hr (hdone hc)
  apply h.keeps hnew
  · rw [SessionRuntime.requestClose_eq]
    rfl
  · intro hf
    rw [hf.retireTask] at hretire
    cases hretire
  · rw [SessionRuntime.requestClose_eq]
    rfl
  · intro hc
    simp [SessionRuntime.requestClose, SessionRuntime.setRetireTask, hc]
  · intro hbegun
    by_cases hc : (s.heap r).closeTask = .absent
    · simp [SessionRuntime.closeBegun, SessionRuntime.requestClose, SessionRuntime.setRetireTask, hc] at hbegun
    · simpa [SessionRuntime.closeBegun, SessionRuntime.requestClose, SessionRuntime.setRetireTask,
        hc] using hbegun

private theorem Watched.retired (h : s.Watched N) (hclosed : s.closeDone r = true) :
    ((s.setRuntime r ((s.heap r).setRetireTask .done)).evict r).Watched N := by
  have hdone : (s.heap r).closeTask = .done := of_decide_eq_true hclosed
  have hv := h.runtimes r
  have hknown (t : Nat) : (s.tasks t).maker ≠ some r := by
    intro hm
    rw [(h.fresh t r hm).1.closeTask] at hdone
    cases hdone
  have hnew : (s.setRuntime r ((s.heap r).setRetireTask .done)).Watched N := by
    apply h.keeps
    · constructor
      · exact hv.dead
      · intro hr he
        refine ⟨(hv.ended hr he).1, (hv.ended hr he).2.1, .inr ?_⟩
        change (s.heap r).closeTask ≠ .absent
        rw [hdone]
        exact CloseTask.noConfusion
      · intro hr hlive
        have habsent := (hv.reading hr hlive).1
        rw [hdone] at habsent
        cases habsent
      · exact hv.closed
    · rfl
    · intro hf
      rw [hf.closeTask] at hdone
      cases hdone
    · rfl
    · exact id
    · exact id
  exact hnew.evict hknown

theorem Watched.step (h : s.Watched N) {e : PoolEvent}
    (hb : ∀ r memory, e = .evolve r .closeBegins memory → ∀ t, (s.tasks t).lease = some r → N t)
    (hs : s.step e = some s') : s'.Watched N := by
  cases step_moves hs with
  | acquire args memory =>
    exact (h.refresh memory (some args.key)).spawn rfl
  | admission t deferred now hp =>
    refine h.enter (by simp [hp]) fun r htook => ?_
    rw [hp] at htook
    exact htook
  | evicted t now hp =>
    refine h.startRuntime now (by simp [hp]) fun r htook => ?_
    rw [hp] at htook
    exact htook
  | connected t now hp => exact h.connected now hp
  | @connectFails t args r hp =>
    have hr : (s.tasks t).owned = some r := by rw [hp]; rfl
    have hm : (s.tasks t).maker = some r := by rw [hp]; rfl
    obtain ⟨hv, hfree⟩ := h.fresh t r hm
    have hpoison : (s.setRuntime r (s.heap r).poison).Watched N :=
      h.keeps (SessionRuntime.tended_of_absent hv.resident fun _ => rfl) rfl
        (fun hf => hf.poison) rfl id id
    have hfailing : ((s.setRuntime r (s.heap r).poison).setTask t
        (.connectFailing args.key r)).Watched N := by
      refine hpoison.letGo _ (ne_new_of_owned hr) rfl fun r' htook => ?_
      change (s.tasks t).Took r' at htook
      rw [hp] at htook
      exact htook
    have hclosed := hfailing.requestClose (r := r) (by
        change (((s.setRuntime r (s.heap r).poison)).heap r).resident = false
        rw [setRuntime_heap_self]
        exact hv.resident)
      (by
        intro t' hm'
        by_cases he : t' = t
        · simp [PoolSystem.setTask, he, TaskPhase.maker] at hm'
        · have hm' : (s.tasks t').maker = some r := by
            simpa [PoolSystem.setTask, PoolSystem.setRuntime, he] using hm'
          exact hfree t' he (TaskPhase.owned_of_maker hm'))
    simpa [PoolSystem.setRuntime, PoolSystem.setTask] using hclosed
  | switched t now | blocked t now => exact h.switched hs
  | @reverted t args r fresh hp =>
    have hm : (s.setRuntime r ((s.heap r).setPermissionMode idlePermissionMode)).Watched N :=
      h.same rfl rfl rfl rfl rfl rfl rfl
    apply hm.failOwn
    · change (s.tasks t).owned = some r
      rw [hp]
      rfl
    · rintro rfl
      change (s.tasks t).maker = some r
      rw [hp]
      rfl
  | startFails t hp =>
    rcases hp with hp | hp
    all_goals
      apply h.failOwn
      · rw [hp]
        rfl
      · rintro rfl
        rw [hp]
        rfl
  | discarded t hk => exact h.discardKey hk
  | closed t hp | cancelFailing t hp => exact h.letGo _ (by simp [hp]) rfl fun _ _ => trivial
  | aborted t hn => exact h.letGo _ hn rfl fun _ _ => trivial
  | cancelEviction t hp | cancelConnect t hp =>
    refine h.letGo _ (by simp [hp]) rfl fun r htook => ?_
    rw [hp] at htook
    exact htook.elim
  | unbindTurn t =>
    obtain ⟨hstate, hflag, hres, hreceiver, hclose, hretire, hqueue⟩ :=
      SessionRuntime.dropBinding_fields (s.heap _)
    exact h.same hstate hflag hres hreceiver hclose hretire hqueue
  | resetTurn t =>
    exact h.same rfl rfl rfl rfl rfl rfl rfl
  | remap t sessionId =>
    exact h.remap sessionId
  | @release t args r mode hp =>
    obtain ⟨hstate, hflag, hres, hreceiver, hclose, hretire, hqueue⟩ :=
      SessionRuntime.dropBinding_fields (s.heap r)
    have hd : (s.setRuntime r (s.heap r).dropBinding).Watched N :=
      h.same hstate hflag hres hreceiver hclose hretire hqueue
    have hr : ((s.setRuntime r (s.heap r).dropBinding).tasks t).owned = some r := by
      change (s.tasks t).owned = some r
      rw [hp]
      rfl
    refine hd.moveOn hr rfl (.inl rfl) (fun r' htook => ?_) (.inr ?_)
    · change (s.tasks t).Took r' at htook
      rw [hp] at htook
      exact htook
    · change _ = (s.tasks t).lease
      rw [hp]
      rfl
  | quiesced t safe reset unread now hp =>
    exact h.finishRelease hp safe reset unread now
  | @releaseFails t r _ _ hp =>
    have hr : (s.tasks t).owned = some r := by rw [hp]; rfl
    have hknown (t' : Nat) : (s.tasks t').maker ≠ some r := by
      intro hm
      by_cases he : t' = t
      · rw [he, hp] at hm
        cases hm
      · exact (h.fresh t' r hm).2 t (Ne.symm he) hr
    exact (h.evict hknown).letGo _ (ne_new_of_owned hr) rfl fun _ _ => trivial
  | evolve r e memory _ hv =>
    refine h.evolve (fun he => ?_) hv
    rw [he] at hb
    exact hb r memory rfl
  | refreshCapacity memory preserve =>
    exact h.refresh memory preserve
  | configure capacity =>
    exact h.configure capacity
  | unconfigured =>
    exact h
  | recycleAll =>
    exact h.recycleAll
  | reserveSession key live cancelActive =>
    exact h.reserveSession key live cancelActive
  | reserveSweep key expired =>
    exact h.reserveSweep key expired
  | releaseMaintenance key =>
    exact h.setPool h.resident
  | retire r hr => exact h.retire hr
  | retired r hr => exact h.retired hr.2

end Steps

end PoolSystem

end PrivaCloud.AgentRunner
