import PrivaCloud.AgentRunner.Pool.Maintenance
import PrivaCloud.AgentRunner.Pool.Watches

/-!
# What a maintenance keeps out of the pool

A ledger says which keys the calls of `reserve_session` hold. No section of the pool brings a runtime under a key
that its caller has looked up for the last time, and no `acquire` of a held key gets its lease.
-/

namespace PrivaCloud.AgentRunner

open Framework

structure MaintenanceLedger where
  /-- `_maintenance_keys` -/
  keys : Finset String
  /-- the caller has looked the key up for the last time -/
  past : String → Prop
  /-- a lease on the key is not released -/
  held : String → Prop
  /-- a caller waits for the close of the runtime -/
  victim : Nat → String → Prop
  /-- the key of the `acquire` that the task is in -/
  asked : Nat → Option String
  past_keys : ∀ k, past k → k ∈ keys
  held_past : ∀ k, held k → past k
  victim_held : ∀ r k, victim r k → ¬ held k

/-- The key of the `acquire` that the task is in. -/
def TaskPhase.acquireKey : TaskPhase → Option String
  | .refreshing args _ _ | .evicting args _ | .connecting args _ | .switching args _ _
  | .reverting args _ _ => some args.key
  | .new | .connectFailing .. | .failing .. | .closing _ | .leased .. | .releasing .. | .finishing ..
  | .ended => none

variable {e : RuntimeEvent}

namespace SessionRuntime

/-- What a task that has reserved the runtime under `k` relies on; `closing` says whether a
maintenance waits for the close of the runtime. -/
structure Pending (v : SessionRuntime) (k : String) (closing : Prop) : Prop where
  key : v.resident = true → v.key = k
  ready : v.state = .idle ∨ v.state = .starting →
    v.healthyFlag = true ∧ v.closeBegun = false ∧ (v.resident = false → closing)

variable {v v' : SessionRuntime} {k : String} {closing : Prop}

private theorem Pending.same (h : v.Pending k closing) (hk : v'.key = v.key) (hr : v'.resident = v.resident)
    (hs : v'.state = v.state) (hf : v'.healthyFlag = v.healthyFlag)
    (hc : v'.closeTask = v.closeTask) : v'.Pending k closing where
  key := by
    rw [hk, hr]
    exact h.key
  ready := by
    rw [hs, hf, hr, closeBegun, hc]
    exact h.ready

theorem pending_of_unready (hk : v.resident = true → v.key = k)
    (hs : ¬(v.state = .idle ∨ v.state = .starting)) : v.Pending k closing :=
  ⟨hk, fun h => absurd h hs⟩

private theorem evolve_ready (he : v.evolve e = some v') (hn : v.endsPeer e = false)
    (hs : v'.state = .idle ∨ v'.state = .starting) :
    v'.state = v.state ∧ v'.healthyFlag = v.healthyFlag ∧ (v'.closeBegun = true → v.closeBegun = true) := by
  have hunready {w : SessionRuntime} (hw : w.state = .idle ∨ w.state = .starting)
      (hw' : w.state = .dead ∨ w.state = .closing ∨ w.state = .draining) : False := by
    rcases hw with hw | hw <;> rw [hw] at hw' <;> rcases hw' with hw' | hw' | hw' <;> cases hw'
  have hbegun (hne : e ≠ .closeBegins) (hb : v'.closeBegun = true) : v.closeBegun = true :=
    (evolve_closeBegun he hb).resolve_right hne
  cases becomes_of_evolve he with
  | entered | unheard | toolReturn => exact ⟨rfl, rfl, id⟩
  | closeBegins =>
    refine (hunready hs (.inr (.inl ?_))).elim
    unfold beginClose
    split <;> rfl
  | closeUnbound timedOut =>
    exact ⟨rfl, rfl, hbegun RuntimeEvent.noConfusion⟩
  | closeDisconnected =>
    exact ⟨rfl, rfl, hbegun RuntimeEvent.noConfusion⟩
  | closeJoined => exact (hunready hs (.inl rfl)).elim
  | queued => exact ⟨rfl, rfl, id⟩
  | frame env f _ hq =>
    have hq : v.activeQueue.isNone = true := by simp [hq]
    simp only [receiveIdle] at hs ⊢
    split at hs
    · rename_i hhandled
      rw [if_pos hhandled]
      obtain h | h | ⟨record, -, h⟩ | ⟨hc, -⟩ := observe_cases v env f
      · rw [h]
        exact ⟨rfl, rfl, id⟩
      · rw [h] at hs
        exact (hunready hs (.inl rfl)).elim
      · rw [h] at hs
        exact (hunready hs (.inr (.inr rfl))).elim
      · simp [endsPeer, hq, hc] at hn
    · refine (hunready hs (.inl ?_)).elim
      rw [(v.observeUnsolicited env f).runtime.poison.receiverStopped_fields.2.2.2.2]
      rfl
  | receiverFails =>
    refine (hunready hs (.inl ?_)).elim
    rw [v.poison.receiverStopped_fields.2.2.2.2]
    rfl
  | receiverEnds =>
    have hstate := v.receiverStopped_fields.2.2.2.2
    split at hstate
    · exact (hunready hs (.inr (.inl hstate))).elim
    · exact (hunready hs (.inl hstate)).elim

theorem requestClose_unbegun (h : v.closeBegun = false) : v.requestClose.closeBegun = false := by
  unfold requestClose
  split
  · rfl
  · exact h

private theorem Pending.evolve (h : v.Pending k closing) (he : v.evolve e = some v')
    (hn : v.endsPeer e = false) : v'.Pending k closing := by
  have hev := evolves_evolve he
  constructor
  · rw [hev.resident, hev.key]
    exact h.key
  · intro hs
    obtain ⟨hstate, hflag, hbegun⟩ := evolve_ready he hn hs
    rw [hstate] at hs
    obtain ⟨hf, hb, hclosing⟩ := h.ready hs
    refine ⟨hflag.trans hf, ?_, ?_⟩
    · cases hb' : v'.closeBegun with
      | false => rfl
      | true =>
        rw [hbegun hb'] at hb
        cases hb
    · rw [hev.resident]
      exact hclosing

end SessionRuntime

namespace PoolSystem

structure Barred (s : PoolSystem) (b : MaintenanceLedger) : Prop where
  keys : s.pool.maintenanceKeys = b.keys
  empty : ∀ k, b.past k → s.pool.runtimes.lookup k = none
  pending : ∀ t args r, s.tasks t = .switching args r false → (s.heap r).Pending args.key (b.victim r args.key)
  leases : ∀ t r, (s.tasks t).lease = some r → ∀ k, b.asked t = some k → ¬ b.held k

/-- Nobody who has reserved the runtime can start a turn on it. -/
def Spent (s : PoolSystem) (r : Nat) : Prop :=
  ∀ t args, s.tasks t = .switching args r false → ¬((s.heap r).state = .idle ∨ (s.heap r).state = .starting)

section Primitives

variable {b : MaintenanceLedger} {s : PoolSystem} {t r : Nat}

private theorem Barred.setPool (h : s.Barred b) {pool : SessionRuntimePool}
    (hk : pool.maintenanceKeys = s.pool.maintenanceKeys)
    (hr : ∀ k r, b.past k → pool.runtimes.lookup k = some r → s.pool.runtimes.lookup k = some r) :
    (s.setPool pool).Barred b where
  keys := hk.trans h.keys
  empty k hp := by
    cases hl : pool.runtimes.lookup k with
    | none => exact hl
    | some r =>
      have hl' := hr k r hp hl
      rw [h.empty k hp] at hl'
      cases hl'
  pending := h.pending
  leases := h.leases

private theorem Barred.setRuntime (h : s.Barred b) {v : SessionRuntime}
    (hv : ∀ t args, s.tasks t = .switching args r false →
      v.Pending args.key (b.victim r args.key)) : (s.setRuntime r v).Barred b where
  keys := h.keys
  empty := h.empty
  pending t args r' ht := by
    by_cases he : r' = r
    · rw [he] at ht ⊢
      rw [setRuntime_heap_self]
      exact hv t args ht
    · simpa [PoolSystem.setRuntime, he] using h.pending t args r' ht
  leases := h.leases

private theorem Barred.same (h : s.Barred b) {v : SessionRuntime} (hk : v.key = (s.heap r).key)
    (hr : v.resident = (s.heap r).resident) (hs : v.state = (s.heap r).state)
    (hf : v.healthyFlag = (s.heap r).healthyFlag) (hc : v.closeTask = (s.heap r).closeTask) :
    (s.setRuntime r v).Barred b :=
  h.setRuntime fun t args ht => (h.pending t args r ht).same hk hr hs hf hc

private theorem Barred.setTask (h : s.Barred b) (phase : TaskPhase) (hp : ∀ args r, phase = .switching args r false →
      (s.heap r).Pending args.key (b.victim r args.key))
    (hl : ∀ r, phase.lease = some r → ∀ k, b.asked t = some k → ¬ b.held k) :
    (s.setTask t phase).Barred b where
  keys := h.keys
  empty := h.empty
  pending t' args r ht := by
    by_cases he : t' = t
    · simp only [PoolSystem.setTask, he, Function.update_self] at ht
      exact hp args r ht
    · simp only [PoolSystem.setTask, Function.update_of_ne he] at ht
      exact h.pending t' args r ht
  leases t' r hl' := by
    by_cases he : t' = t
    · simp only [PoolSystem.setTask, he, Function.update_self] at hl'
      rw [he]
      exact hl r hl'
    · simp only [PoolSystem.setTask, Function.update_of_ne he] at hl'
      exact h.leases t' r hl'

private theorem Barred.letGo (h : s.Barred b) (phase : TaskPhase) (ho : phase.owned = none) :
    (s.setTask t phase).Barred b := by
  apply h.setTask
  · rintro args r rfl
    cases ho
  · intro r hl
    rw [(TaskPhase.unowned ho).2] at hl
    cases hl

private theorem Barred.spawn (h : s.Barred b) (phase : TaskPhase) (ho : phase.owned = none) :
    (s.spawn phase).Barred b := by
  obtain ⟨hk, he, hp, hl⟩ := h.letGo (t := s.spawned) phase ho
  exact ⟨hk, he, hp, hl⟩

theorem Barred.evict (h : s.Barred b) (hr : s.Spent r) : (s.evict r).Barred b := by
  have hpool : (s.setPool (s.pool.remove r)).Barred b := by
    apply h.setPool
    · rfl
    · intro k r' _ hl
      simp only [SessionRuntimePool.remove, Dict.lookup_popValue] at hl
      exact hl.1
  apply hpool.setRuntime
  intro t args ht
  apply SessionRuntime.pending_of_unready
  · intro hres
    cases hres
  · unfold SessionRuntime.dismiss
    rw [SessionRuntime.requestClose_eq]
    exact hr t args ht

private theorem Spent.evict (h : s.Spent r) (r' : Nat) : (s.evict r').Spent r := by
  intro t args ht
  by_cases he : r = r'
  · rw [he] at h ht ⊢
    simp only [PoolSystem.evict, setRuntime_heap_self, SessionRuntime.dismiss]
    rw [SessionRuntime.requestClose_eq]
    exact h t args ht
  · simpa [PoolSystem.evict, PoolSystem.setRuntime, PoolSystem.setPool, he] using h t args ht

private theorem Barred.evictAll (h : s.Barred b) {victims : List Nat} (hv : ∀ r ∈ victims, s.Spent r) :
    (s.evictAll victims).Barred b := by
  induction victims generalizing s with
  | nil => exact h
  | cons v rest ih =>
    apply ih (h.evict (hv v List.mem_cons_self))
    intro r hr
    exact (hv r (List.mem_cons_of_mem _ hr)).evict v

theorem Barred.retireLater (h : s.Barred b) (r : Nat) : (s.setRuntime r (s.heap r).retireLater).Barred b :=
  h.same rfl rfl rfl rfl rfl

private theorem Barred.retireBusy (h : s.Barred b) (busy : SessionRuntime → Bool) : (s.retireBusy busy).Barred b where
  keys := h.keys
  empty := h.empty
  pending t args r ht := by
    simp only [PoolSystem.retireBusy]
    split
    · exact (h.pending t args r ht).same rfl rfl rfl rfl rfl
    · exact h.pending t args r ht
  leases := h.leases

private theorem Spent.retireBusy (h : s.Spent r) (busy : SessionRuntime → Bool) : (s.retireBusy busy).Spent r := by
  intro t args ht
  simp only [PoolSystem.retireBusy]
  split
  · exact h t args ht
  · exact h t args ht

theorem Barred.spent (h : s.Barred b) (hord : s.Ordered) (hres : (s.heap r).resident = true)
    (hx : (s.heap r).expendable = true) : s.Spent r := by
  intro t args ht hready
  have hs := hord.suits t r (by rw [ht]; rfl)
  rw [ht] at hs
  obtain ⟨hf, -⟩ := (h.pending t args r ht).ready hready
  rcases hready with hidle | hstarting
  · exact hs.1 hres hidle
  · simp [SessionRuntime.expendable, SessionRuntime.evictable, SessionRuntime.healthy, hf, hstarting] at hx

private theorem spent_of_unhealthy (h : s.Barred b) (hf : (s.heap r).healthyFlag = false) : s.Spent r := by
  intro t args ht hready
  rw [((h.pending t args r ht).ready hready).1] at hf
  cases hf

private theorem Ordered.unreserved (hord : s.Ordered) (hr : (s.tasks t).owned = some r) {phase : TaskPhase}
    (hp : phase.owned = none) (t' : Nat) (args : AcquireArgs) :
    (s.setTask t phase).tasks t' ≠ .switching args r false := by
  intro ht
  by_cases he : t' = t
  · simp only [PoolSystem.setTask, he, Function.update_self] at ht
    rw [ht] at hp
    cases hp
  · simp only [PoolSystem.setTask, Function.update_of_ne he] at ht
    exact he (hord.tenants t' t r (by rw [ht]; rfl) hr)

private theorem Barred.startRuntime (h : s.Barred b) (hord : s.Ordered) {args : AcquireArgs} (now : Nat) :
    (s.startRuntime t args now).Barred b := by
  have hmade : (s.allocate (.create args.key args.options now)).Barred b := by
    refine ⟨h.keys, h.empty, fun t' args' r ht => ?_, h.leases⟩
    have hne : r ≠ s.allocated := Nat.ne_of_lt (hord.below t' r (by
      rw [show s.tasks t' = .switching args' r false from ht]
      rfl))
    simpa [PoolSystem.allocate, hne] using h.pending t' args' r ht
  apply hmade.setTask
  · intro args' r hp
    cases hp
  · intro r hl
    cases hl

end Primitives

section Capacity

variable {b : MaintenanceLedger} {s : PoolSystem}

private theorem Barred.spent_of_expendables (h : s.Barred b) (hord : s.Ordered) {preserve : Option String}
    {r : Nat} (hr : r ∈ s.pool.expendables s.heap preserve) : s.Spent r := by
  obtain ⟨⟨k, hk⟩, hx⟩ := SessionRuntimePool.mem_expendables hr
  exact h.spent hord ((hord.keyed k r).mp hk).1 hx

private theorem Barred.refresh (h : s.Barred b) (hord : s.Ordered) (memory : RuntimeMemorySnapshot)
    (preserve : Option String) : (s.refresh memory preserve).Barred b := by
  have hp : (s.setPool (s.pool.resized memory)).Barred b := by
    apply h.setPool
    · rfl
    · exact fun _ _ _ hl => hl
  have hordp : (s.setPool (s.pool.resized memory)).Ordered :=
    hord.setPool rfl (Finset.Subset.refl _)
  have hv (r : Nat) (hr : r ∈ (s.pool.resized memory).refreshVictims s.heap memory preserve) :
      (s.setPool (s.pool.resized memory)).Spent r :=
    hp.spent_of_expendables hordp (SessionRuntimePool.mem_refreshVictims hr)
  simp only [PoolSystem.refresh]
  split
  · exact (hp.retireBusy _).evictAll fun r hr => (hv r hr).retireBusy _
  · exact hp.evictAll hv

private theorem Barred.configure (h : s.Barred b) (hord : s.Ordered) (capacity : Nat) :
    (s.configure capacity).Barred b := by
  have hp : (s.setPool { s.pool with
      capacityOverride := true, activeCapacity := capacity, capacity := capacity }).Barred b := by
    apply h.setPool
    · rfl
    · exact fun _ _ _ hl => hl
  have hordp : (s.setPool { s.pool with
      capacityOverride := true, activeCapacity := capacity, capacity := capacity }).Ordered :=
    hord.setPool rfl (Finset.Subset.refl _)
  have hv : ((s.setPool { s.pool with
      capacityOverride := true, activeCapacity := capacity, capacity := capacity }).evictAll
        (SessionRuntimePool.overflowVictims capacity s.pool.size 0
          (s.pool.expendables s.heap none))).Barred b :=
    hp.evictAll fun r hr =>
      hp.spent_of_expendables hordp (SessionRuntimePool.mem_overflowVictims hr)
  simp only [PoolSystem.configure]
  split
  · exact Barred.retireBusy hv _
  · exact hv

private theorem Barred.recycleAll (h : s.Barred b) (hord : s.Ordered) : s.recycleAll.Barred b := by
  apply (h.retireBusy _).evictAll
  intro r hr
  obtain ⟨hmem, hx⟩ := List.mem_filter.mp hr
  obtain ⟨k, hk⟩ := Dict.mem_values.mp hmem
  exact (h.spent hord ((hord.keyed k r).mp hk).1 hx).retireBusy _

end Capacity

variable {N : Nat → Prop} {memory : RuntimeMemorySnapshot}

section Turns

variable {b : MaintenanceLedger} {s : PoolSystem} {t r : Nat} {args : AcquireArgs}

private theorem Barred.failStart (h : s.Barred b) (hord : s.Ordered) (hr : (s.tasks t).owned = some r)
    (fresh : Bool) : (s.failStart t args r fresh).Barred b := by
  have hover : (s.setTask t .ended).Barred b := h.letGo _ rfl
  have hfree := hord.unreserved hr (show TaskPhase.ended.owned = none from rfl)
  cases fresh with
  | true =>
    have hclosed : ((s.setTask t .ended).setRuntime r (s.heap r).requestClose).Barred b :=
      hover.setRuntime fun t' args' ht => absurd ht (hfree t' args')
    have hover' := hclosed.letGo (t := t) (.failing args.key r) rfl
    simpa [PoolSystem.failStart, PoolSystem.setTask, PoolSystem.setRuntime] using hover'
  | false =>
    have hevicted := hover.evict fun t' args' ht => absurd ht (hfree t' args')
    have hover' := hevicted.letGo (t := t) (.closing r) rfl
    simpa [PoolSystem.failStart, PoolSystem.setTask, PoolSystem.setRuntime, PoolSystem.evict,
      PoolSystem.setPool] using hover'

variable {fresh : Bool}

private theorem Barred.takeTurn (h : s.Barred b) (hfree : ∀ t args, s.tasks t ≠ .switching args r false)
    (hask : b.asked t = some args.key) (hw : fresh = false → ¬ b.held args.key)
    (now : Nat) : (s.takeTurn t args r fresh now).Barred b := by
  have hown : (s.setRuntime r ((s.heap r).ownTurn t args.binding args.mode now)).Barred b :=
    h.setRuntime fun t' args' ht => absurd ht (hfree t' args')
  have hleased (s₁ : PoolSystem) (hs₁ : s₁.Barred b) (hk : ¬ b.held args.key) :
      (s₁.setTask t (.leased r args.mode)).Barred b := by
    apply hs₁.setTask
    · intro args' r' hp
      cases hp
    · intro r' _ k hk'
      rw [hask] at hk'
      cases hk'
      exact hk
  simp only [PoolSystem.takeTurn]
  split
  · cases fresh with
    | true =>
      refine Barred.letGo (Barred.setRuntime hown fun t' args' ht => ?_) _ rfl
      exact absurd ht (hfree t' args')
    | false => exact (hown.evict fun t' args' ht => absurd ht (hfree t' args')).letGo _ rfl
  split
  · have hp : ((s.setRuntime r ((s.heap r).ownTurn t args.binding args.mode now)).setPool
        (s.pool.discardStarting args.key)).Barred b := by
      apply hown.setPool
      · rfl
      · exact fun _ _ _ hl => hl
    simp only [PoolSystem.register]
    split
    · refine Barred.letGo (Barred.setRuntime hp fun t' args' ht => ?_) _ rfl
      exact absurd ht (hfree t' args')
    · rename_i hclear
      simp only [not_or] at hclear
      have hkey : ¬ b.past args.key := by
        intro hpast
        have hmem := b.past_keys _ hpast
        rw [← h.keys] at hmem
        exact hclear.1 hmem
      apply hleased
      · apply Barred.setRuntime
        · apply Barred.setPool hp
          · rfl
          · intro k r' hpast hl
            have hne : k ≠ args.key := by
              rintro rfl
              exact hkey hpast
            simp only [SessionRuntimePool.enter] at hl
            rw [AList.lookup_insert_ne hne] at hl
            exact hl
        · exact fun t' args' ht => absurd ht (hfree t' args')
      · exact fun hheld => hkey (b.held_past _ hheld)
  · rename_i hwarm
    exact hleased _ hown (hw (by simpa using hwarm))

private theorem Barred.takeSwitched (h : s.Barred b) (hord : s.Ordered)
    (ht : s.tasks t = .switching args r fresh) (hask : b.asked t = some args.key)
    (hw : fresh = false → ¬ b.held args.key) (now : Nat) :
    (s.takeTurn t args r fresh now).Barred b := by
  have hr : (s.tasks t).owned = some r := by rw [ht]; rfl
  have hover : (s.setTask t .ended).Barred b := h.letGo _ rfl
  rw [← takeTurn_setTask s t args r fresh now .ended]
  exact hover.takeTurn (hord.unreserved hr rfl) hask hw now

private theorem Barred.beginTurn (h : (s.setTask t (.switching args r fresh)).Barred b)
    (hord : (s.setTask t (.switching args r fresh)).Ordered) (hask : b.asked t = some args.key)
    (hw : fresh = false → ¬ b.held args.key) (now : Nat) :
    (s.beginTurn t args r fresh now).Barred b :=
  beginTurn_cases (P := fun s => s.Barred b) h fun ht => h.takeSwitched hord ht hask hw now

private theorem Barred.unheld (h : s.Barred b) (hord : s.Ordered) (ht : s.tasks t = .switching args r false)
    (hs : (s.heap r).state = .idle ∨ (s.heap r).state = .starting) : ¬ b.held args.key := by
  intro hheld
  obtain ⟨hkey, hready⟩ := h.pending t args r ht
  cases hres : (s.heap r).resident with
  | false => exact b.victim_held r _ ((hready hs).2.2 hres) hheld
  | true =>
    have hlookup := (hord.keyed args.key r).mpr ⟨hres, hkey hres⟩
    rw [h.empty _ (b.held_past _ hheld)] at hlookup
    cases hlookup

private theorem admission_unreserved {p : SessionRuntimePool} {heap : Nat → SessionRuntime}
    {a : SessionRuntimePool.Admission}
    (h : p.admission heap args.key args.options memory = a) (ha : ∀ e, a ≠ .refused e) :
    args.key ∉ p.maintenanceKeys := by
  intro hm
  rw [SessionRuntimePool.admission, if_pos hm] at h
  exact ha _ h.symm

private theorem Barred.enter (h : s.Barred b) (hord : s.Ordered) (hw : s.Watched N)
    {deferred : Bool} {now : Nat} (hn : s.tasks t ≠ .new)
    (hask : b.asked t = some args.key) : (s.enter t args memory deferred now).Barred b := by
  have hadd (s₁ : PoolSystem) (hs₁ : s₁.Barred b) :
      (s₁.setPool (s₁.pool.addStarting args.key t args.options)).Barred b := by
    apply hs₁.setPool
    · rfl
    · exact fun _ _ _ hl => hl
  unfold PoolSystem.enter
  split
  · exact h.letGo _ rfl
  · rename_i r hadm
    obtain ⟨hclear, hlookup, hh, -⟩ := SessionRuntimePool.admission_backed hadm (by simp)
    have hunreserved := admission_unreserved hadm (fun e he => by cases he)
    obtain ⟨hres, hfree⟩ := hord.free_of_reuse hadm
    have hreserved (writes : Bool) : (s.setRuntime r ((s.heap r).reserve writes)).Barred b :=
      h.setRuntime fun t' args' ht => absurd (by rw [ht]; rfl) (hfree t')
    have hunheld : ¬ b.held args.key := by
      intro hheld
      have hmem := b.past_keys _ (b.held_past _ hheld)
      rw [← h.keys] at hmem
      exact hunreserved hmem
    have hidle := hclear.idle r hlookup hh
    simp only [SessionRuntime.evictable, Bool.and_eq_true, decide_eq_true_eq] at hidle
    obtain ⟨-, hclose, -⟩ := (hw.runtimes r).untouched hres (.inl hidle.1)
    simp only [SessionRuntime.healthy, Bool.and_eq_true] at hh
    simp only
    split
    · refine ((hreserved _).evict fun t' args' ht => ?_).letGo _ rfl
      exact absurd (by rw [show s.tasks t' = _ from ht]; rfl) (hfree t')
    · refine Barred.beginTurn ?_ (hord.reserveTurn hadm hn) hask (fun _ => hunheld) now
      apply (hreserved _).setTask
      · intro args' r' hp
        cases hp
        rw [setRuntime_heap_self]
        refine ⟨fun _ => ((hord.keyed args.key r).mp hlookup).2, fun _ => ⟨hh.1, ?_, ?_⟩⟩
        · simpa using SessionRuntime.not_closeBegun (v := (s.heap r).reserve _) hclose
        · intro hgone
          rw [show (s.heap r).resident = false from hgone] at hres
          cases hres
      · intro r' hl
        cases hl
  · rename_i victim hadm
    obtain ⟨hres, hx⟩ := hord.expendable_of_evict hadm
    exact (hadd _ (h.evict (h.spent hord hres hx))).letGo _ rfl
  · refine (hadd s h).startRuntime ?_ now
    exact hord.setPool rfl (Finset.subset_insert _ _)

private theorem Barred.remap (h : s.Barred b) (hord : s.Ordered) (hr : (s.tasks t).lease = some r) {sessionId : String}
    (hpast : b.past sessionId → sessionId = "" ∨ s.pool.runtimes.lookup (s.heap r).key ≠ some r) :
    (s.remap r sessionId).Barred b := by
  have hfree (t' : Nat) (args : AcquireArgs) : s.tasks t' ≠ .switching args r false := by
    intro ht
    have heq := hord.tenants t' t r (by rw [ht]; rfl) (TaskPhase.owned_of_lease hr).1
    rw [heq] at ht
    rw [ht] at hr
    cases hr
  unfold PoolSystem.remap
  split
  · exact h
  rename_i hgone
  split
  · exact h.setRuntime fun t' args ht => absurd ht (hfree t' args)
  · apply Barred.setRuntime
    · apply h.setPool
      · rfl
      · intro k r' hk hl
        have hne : k ≠ sessionId := by
          rintro rfl
          exact hgone (hpast hk)
        simp only [SessionRuntimePool.rekey] at hl
        rw [AList.lookup_insert_ne hne] at hl
        by_cases hold : k = (s.heap r).key
        · rw [hold, AList.lookup_erase] at hl
          cases hl
        · rw [AList.lookup_erase_ne hold] at hl
          exact hl
    · exact fun t' args ht => absurd ht (hfree t' args)

private theorem Barred.finishRelease (h : s.Barred b) (hord : s.Ordered) {mode : PermissionMode}
    {rargs : ReleaseArgs} (ht : s.tasks t = .releasing r mode rargs) (safe reset : Bool)
    (unread : List UnreadFrame) (now : Nat) :
    (s.finishRelease t r rargs safe reset unread now).Barred b := by
  have hr : (s.tasks t).owned = some r := by rw [ht]; rfl
  have hover : (s.setTask t .ended).Barred b := h.letGo _ rfl
  have hfree := hord.unreserved hr (show TaskPhase.ended.owned = none from rfl)
  have hsettle (w : SessionRuntime) : ((s.setRuntime r w).settleRelease t r rargs.keepWarm).Barred b := by
    have hset : ((s.setTask t .ended).setRuntime r w).Barred b :=
      hover.setRuntime fun t' args' ht' => absurd ht' (hfree t' args')
    unfold PoolSystem.settleRelease
    split
    · have hevicted := hset.evict (r := r) fun t' args' ht' => absurd ht' (hfree t' args')
      have hover' := hevicted.letGo (t := t) (.closing r) rfl
      simpa [PoolSystem.evict, PoolSystem.setRuntime, PoolSystem.setTask, PoolSystem.setPool]
        using hover'
    · exact hset
  exact hsettle _

end Turns

/-- No peer turn ends on a runtime that an `acquire` has reserved and not yet got. -/
def SparesReserved (s : PoolSystem) : PoolEvent → Prop
  | .evolve r e _ => (s.heap r).endsPeer e = true →
      ∀ t < s.spawned, (s.tasks t).owned = some r → (s.tasks t).reserving = false
  | _ => True

instance (s : PoolSystem) (e : PoolEvent) : Decidable (SparesReserved s e) := by
  apply @PoolEvent.casesOn _ e <;> intros <;> dsimp only [SparesReserved] <;> infer_instance

section Steps

variable {b : MaintenanceLedger} {s s' : PoolSystem}

theorem SparesReserved.keepsReservation {e : PoolEvent} (h : SparesReserved s e) : KeepsReservation s e := by
  cases e with
  | evolve r e memory => exact fun hends _ => h hends
  | acquire | admission | evicted | connected | connectFails | switched | reverted | startFails
  | closed | cancel | unbindTurn | resetTurn | remap | release | quiesced | releaseFails
  | refreshCapacity | configure | recycleAll | reserveSession | reserveSweep | releaseMaintenance
  | retire | retired => trivial

private theorem Barred.evolve (h : s.Barred b) (hord : s.Ordered) {r : Nat}
    (hc : SparesReserved s (.evolve r e memory))
    (hv : (s.heap r).evolve (e.withAdmission (s.pool.admitsPeer s.heap r memory)) = some v) :
    (s.setRuntime r v).Barred b := by
  apply h.setRuntime
  intro t args ht
  apply (h.pending t args r ht).evolve hv
  rw [endsPeer_withAdmission]
  by_contra hends
  have hr : (s.tasks t).owned = some r := by rw [ht]; rfl
  have hspawned : t < s.spawned := by
    by_contra hge
    exact ne_new_of_owned hr (hord.unspawned t (Nat.le_of_not_lt hge))
  have hreserving := hc (by simpa using hends) t hspawned hr
  rw [ht] at hreserving
  cases hreserving

private theorem Barred.discardKey (h : s.Barred b) (t : Nat) (key : String) : (s.discardKey t key).Barred b := by
  have hp : (s.setPool (s.pool.discardStarting key)).Barred b := by
    apply h.setPool
    · rfl
    · exact fun _ _ _ hl => hl
  exact hp.letGo _ rfl

private theorem Barred.switched (h : s.Barred b) (hord : s.Ordered)
    (hask : ∀ t, b.asked t = (s.tasks t).acquireKey) {t now : Nat}
    (hs : s.step (.switched t now) = some s') : s'.Barred b := by
  simp only [PoolSystem.step] at hs
  split at hs
  · rename_i args r fresh hp
    have hm : (s.setRuntime r ((s.heap r).setPermissionMode args.mode)).Barred b :=
      h.same rfl rfl rfl rfl rfl
    have hordm : (s.setRuntime r ((s.heap r).setPermissionMode args.mode)).Ordered :=
      hord.evolves (SessionRuntime.evolves_setPermissionMode _ _) fun _ _ _ _ hs => hs
    split at hs <;> cases hs
    · apply hm.setTask
      · intro args' r' hp'
        cases hp'
      · intro r' hl
        cases hl
    · rename_i hblocked
      simp only [SessionRuntime.startBlocked, Bool.or_eq_true, Bool.not_eq_true',
        Option.isSome_iff_ne_none, not_or, Bool.not_eq_false, decide_eq_true_eq, ne_eq,
        Decidable.not_not] at hblocked
      apply hm.takeSwitched hordm hp
      · rw [hask, hp]
        rfl
      · rintro rfl
        exact hm.unheld hordm hp hblocked.1
  · cases hs

theorem Barred.retire (h : s.Barred b) (hw : s.Watched N) {r : Nat} (hretire : (s.heap r).retireTask = .scheduled) :
    (s.setRuntime r ((s.heap r).requestClose.setRetireTask .closing)).Barred b := by
  apply h.setRuntime
  intro t args ht
  have hp := h.pending t args r ht
  cases hres : (s.heap r).resident with
  | true =>
    have hended : (s.heap r).receiver = .ended := by
      by_contra hlive
      have habsent := ((hw.runtimes r).reading hres hlive).2.1
      rw [hretire] at habsent
      cases habsent
    have hflag := ((hw.runtimes r).ended hres hended).2.1
    apply SessionRuntime.pending_of_unready
    · rw [SessionRuntime.requestClose_eq]
      exact hp.key
    · rw [SessionRuntime.requestClose_eq]
      exact spent_of_unhealthy h hflag t args ht
  | false =>
    constructor
    · rw [SessionRuntime.requestClose_eq]
      exact hp.key
    · intro hready
      rw [SessionRuntime.requestClose_eq] at hready
      obtain ⟨hf, hb, hclosing⟩ := hp.ready hready
      refine ⟨?_, ?_, fun _ => hclosing hres⟩
      · rw [SessionRuntime.requestClose_eq]
        exact hf
      · exact SessionRuntime.requestClose_unbegun hb

private theorem Barred.retired (h : s.Barred b) {r : Nat} (hclosed : s.closeDone r = true) :
    ((s.setRuntime r ((s.heap r).setRetireTask .done)).evict r).Barred b := by
  have hdone : (s.heap r).closeTask = .done := of_decide_eq_true hclosed
  have hset : (s.setRuntime r ((s.heap r).setRetireTask .done)).Barred b :=
    h.same rfl rfl rfl rfl rfl
  apply hset.evict
  intro t args ht hready
  rw [setRuntime_heap_self] at hready
  have hb := ((h.pending t args r ht).ready hready).2.1
  rw [SessionRuntime.closeBegun, hdone] at hb
  cases hb

theorem Barred.step (h : s.Barred b) (hord : s.Ordered) (hw : s.Watched N)
    (hask : ∀ t, b.asked t = (s.tasks t).acquireKey) {e : PoolEvent}
    (hplain : MaintenanceSystem.plain e = true) (hc : SparesReserved s e)
    (hremap : ∀ t sessionId r mode, e = .remap t sessionId → s.tasks t = .leased r mode →
      b.past sessionId → sessionId = "" ∨ s.pool.runtimes.lookup (s.heap r).key ≠ some r)
    (hs : s.step e = some s') : s'.Barred b := by
  cases step_moves hs with
  | acquire args memory =>
    exact (h.refresh hord memory (some args.key)).spawn _ rfl
  | admission t deferred now hp =>
    refine h.enter hord hw (by simp [hp]) ?_
    rw [hask, hp]
    rfl
  | evicted t now =>
    exact h.startRuntime hord now
  | @connected t now args r hp =>
    have hr : (s.tasks t).owned = some r := by rw [hp]; rfl
    have hfree (t' : Nat) (args' : AcquireArgs) : s.tasks t' ≠ .switching args' r false := by
      intro ht
      have heq := hord.tenants t' t r (by rw [ht]; rfl) hr
      rw [heq, hp] at ht
      cases ht
    have hc : (s.setRuntime r ((s.heap r).connected now)).Barred b :=
      h.setRuntime fun t' args' ht => absurd ht (hfree t' args')
    refine Barred.beginTurn ?_ (hord.connectedTurn now hp) ?_ (fun hn => by cases hn) now
    · apply hc.setTask
      · intro args' r' hp'
        cases hp'
      · intro r' hl
        cases hl
    · rw [hask, hp]
      rfl
  | @connectFails t args r hp =>
    have hr : (s.tasks t).owned = some r := by rw [hp]; rfl
    refine Barred.letGo (h.setRuntime fun t' args' ht => ?_) _ rfl
    have heq := hord.tenants t' t r (by rw [ht]; rfl) hr
    rw [heq, hp] at ht
    cases ht
  | switched t now | blocked t now => exact h.switched hord hask hs
  | @reverted t args r fresh hp =>
    have hm : (s.setRuntime r ((s.heap r).setPermissionMode idlePermissionMode)).Barred b :=
      h.same rfl rfl rfl rfl rfl
    have hordm : (s.setRuntime r ((s.heap r).setPermissionMode idlePermissionMode)).Ordered :=
      hord.evolves (SessionRuntime.evolves_setPermissionMode _ _) fun _ _ _ _ hs => hs
    apply hm.failStart hordm
    change (s.tasks t).owned = some r
    rw [hp]
    rfl
  | startFails t hp =>
    rcases hp with hp | hp
    all_goals
      apply h.failStart hord
      rw [hp]
      rfl
  | discarded t => exact h.discardKey t _
  | closed | aborted | cancelEviction | cancelConnect | cancelFailing => exact h.letGo _ rfl
  | unbindTurn t =>
    obtain ⟨hstate, hflag, hres, -, hclose, -, -⟩ := SessionRuntime.dropBinding_fields (s.heap _)
    refine h.same ?_ hres hstate hflag hclose
    rw [SessionRuntime.dropBinding_eq]
  | resetTurn t =>
    exact h.same rfl rfl rfl rfl rfl
  | @remap t sessionId r mode hp =>
    exact h.remap hord (by rw [hp]; rfl) (hremap t sessionId r mode rfl hp)
  | @release t args r mode hp =>
    obtain ⟨hstate, hflag, hres, -, hclose, -, -⟩ := SessionRuntime.dropBinding_fields (s.heap r)
    have hd : (s.setRuntime r (s.heap r).dropBinding).Barred b := by
      refine h.same ?_ hres hstate hflag hclose
      rw [SessionRuntime.dropBinding_eq]
    apply hd.setTask
    · intro args' r' hp'
      cases hp'
    · intro r' hl
      cases hl
      exact h.leases t r (by rw [hp]; rfl)
  | quiesced t safe reset unread now hp =>
    exact h.finishRelease hord hp safe reset unread now
  | @releaseFails t r _ _ hp =>
    refine (h.evict fun t' args ht => ?_).letGo _ rfl
    have heq := hord.tenants t' t r (by rw [ht]; rfl) (by rw [hp]; rfl)
    rw [heq, hp] at ht
    cases ht
  | evolve r e memory _ hv => exact h.evolve hord hc hv
  | refreshCapacity memory preserve =>
    exact h.refresh hord memory preserve
  | configure capacity =>
    exact h.configure hord capacity
  | unconfigured =>
    exact h
  | recycleAll =>
    exact h.recycleAll hord
  | reserveSession | reserveSweep | releaseMaintenance => cases hplain
  | retire r hr => exact h.retire hw hr
  | retired r hr => exact h.retired hr.2

end Steps

end PoolSystem

end PrivaCloud.AgentRunner
