import PrivaCloud.AgentRunner.Pool.Sections

/-!
# Turn ownership

A healthy runtime with an unreleased lease stays in the pool and is not closed, and it has no other
lease.
-/

namespace PrivaCloud.AgentRunner

open Framework

variable {v v' : SessionRuntime}

variable {e : RuntimeEvent}

namespace SessionRuntime

/-- A healthy resident is neither dead nor being closed or retired. -/
structure Coherent (v : SessionRuntime) : Prop where
  closing : v.closeTask ≠ .absent → v.resident = false ∨ v.healthyFlag = false
  dead : v.state = .dead → v.healthyFlag = false
  retiring : v.retireTask ≠ .absent → v.healthyFlag = false

private theorem Coherent.same (h : v.Coherent) (hc : v'.closeTask = v.closeTask)
    (hr : v'.resident = v.resident) (hf : v'.healthyFlag = v.healthyFlag)
    (hs : v'.state = .dead → v.state = .dead) (ht : v'.retireTask = v.retireTask) :
    v'.Coherent where
  closing hn := by
    rw [hr, hf]
    exact h.closing (by rwa [← hc])
  dead hd := by
    rw [hf]
    exact h.dead (hs hd)
  retiring hn := by
    rw [hf]
    exact h.retiring (by rwa [← ht])

private theorem coherent_of_unhealthy (hf : v.healthyFlag = false) : v.Coherent :=
  ⟨fun _ => .inr hf, fun _ => hf, fun _ => hf⟩

private theorem coherent_create (key : String) (options : RuntimeOptions) (now : Nat) :
    (create key options now).Coherent :=
  ⟨fun hn => absurd rfl hn, (fun hd => by cases hd), fun hn => absurd rfl hn⟩

private theorem Coherent.requestClose (h : v.Coherent)
    (hv : v.resident = false ∨ v.healthyFlag = false) : v.requestClose.Coherent := by
  rw [requestClose_eq]
  exact ⟨fun _ => hv, h.dead, h.retiring⟩

private theorem Coherent.dismiss (h : v.Coherent) : v.dismiss.Coherent := by
  unfold SessionRuntime.dismiss
  rw [requestClose_eq]
  exact ⟨fun _ => .inl rfl, h.dead, h.retiring⟩

private theorem Coherent.moveIn (h : v.Coherent) (hc : v.closeTask = .absent)
    (late : Bool) : (v.moveIn late).Coherent :=
  ⟨fun hn => absurd hc hn, h.dead, h.retiring⟩

private theorem Coherent.ownTurn (h : v.Coherent) (t : Nat) (binding : RunBinding)
    (mode : PermissionMode) (now : Nat) : (v.ownTurn t binding mode now).Coherent := by
  refine h.same rfl rfl rfl ?_ rfl
  simp only [SessionRuntime.ownTurn]
  split
  · intro hd
    cases hd
  · exact id

theorem finishTurn_dead (h : v.state = .dead → v.healthyFlag = false)
    {unread : List (PeerEnv × Frame)} {tainted keepWarm : Bool} {now : Nat}
    (hd : (v.finishTurn unread tainted keepWarm now).state = .dead) :
    (v.finishTurn unread tainted keepWarm now).healthyFlag = false := by
  by_contra hn
  have hf : (v.finishTurn unread tainted keepWarm now).healthyFlag = true := by simpa using hn
  obtain ⟨hfv, ht, hu⟩ := finishTurn_flag hf
  simp only [SessionRuntime.finishTurn, ht, hu, settle, Bool.not_true, Bool.or_self,
    Bool.false_eq_true, if_false, Bool.not_false, Bool.and_true] at hd hf
  have hdead : (v.releaseQueue.observeUnread unread).1.state = .dead := by
    split at hd
    · cases hd
    · exact hd
  rcases (observes_observeUnread v.releaseQueue unread).dead hdead with hdead | hflag
  · rw [h hdead] at hfv
    cases hfv
  · rw [hflag] at hf
    cases hf

private theorem Coherent.finishTurn (h : v.Coherent) (unread : List (PeerEnv × Frame))
    (tainted keepWarm : Bool) (now : Nat) :
    (v.finishTurn unread tainted keepWarm now).Coherent := by
  by_cases hf : (v.finishTurn unread tainted keepWarm now).healthyFlag = true
  · obtain ⟨hfv, -, -⟩ := finishTurn_flag hf
    constructor
    · intro hn
      rw [finishTurn_eq] at hn ⊢
      exact .inl (by simpa [hfv] using h.closing hn)
    · exact finishTurn_dead h.dead
    · intro hn
      rw [finishTurn_eq] at hn
      simp [h.retiring hn] at hfv
  · exact coherent_of_unhealthy (by simpa using hf)

theorem receiverStopped_retireTask (v : SessionRuntime) : v.receiverStopped.retireTask = v.retireTask ∨
      v.receiverStopped.state = .dead ∧ v.resident = true := by
  have hsched (w : SessionRuntime) (hw : w.resident = v.resident)
      (ht : w.retireTask = v.retireTask) (hd : w.state = .dead) :
      w.scheduleRetirement.retireTask = v.retireTask ∨
        w.scheduleRetirement.state = .dead ∧ v.resident = true := by
    unfold scheduleRetirement
    split
    · rename_i hc
      simp only [Bool.and_eq_true] at hc
      exact .inr ⟨hd, hw ▸ hc.1⟩
    · exact .inl ht
  simp only [receiverStopped]
  split
  · split
    · rename_i hd
      exact hsched _ rfl rfl hd
    · exact .inl rfl
  · exact hsched (SessionRuntime.poison { v with receiver := .ended }) rfl rfl rfl

private theorem evolve_retireTask (h : v.evolve e = some v') :
    v'.retireTask = v.retireTask ∨ v'.state = .dead ∧ v.resident = true := by
  cases becomes_of_evolve h with
  | entered | unheard => exact .inl rfl
  | closeBegins =>
    left
    have hd : v.dropBinding.retireTask = v.retireTask := by rw [dropBinding_eq]
    unfold beginClose
    split <;> exact hd
  | queued => exact .inl rfl
  | frame env f =>
    have hfix := (observes_observeUnsolicited v env f).fixed
    simp only [receiveIdle]
    split
    · exact .inl (by rw [hfix])
    · have hr := (v.observeUnsolicited env f).runtime.poison.receiverStopped_retireTask
      have ht : (v.observeUnsolicited env f).runtime.poison.retireTask = v.retireTask := by
        rw [hfix]
        rfl
      have hres : (v.observeUnsolicited env f).runtime.poison.resident = v.resident := by
        rw [hfix]
        rfl
      rw [ht, hres] at hr
      exact hr
  | receiverFails => exact v.poison.receiverStopped_retireTask
  | receiverEnds => exact v.receiverStopped_retireTask
  | toolReturn | closeUnbound | closeDisconnected | closeJoined => exact .inl rfl

private theorem Coherent.evolve (h : v.Coherent)
    (he : v.evolve e = some v') : v'.Coherent := by
  have hev := evolves_evolve he
  have hdown (hf : v.healthyFlag = false) : v'.healthyFlag = false := by
    by_contra hn
    rw [hev.flag (by simpa using hn)] at hf
    cases hf
  have hdead (hd : v'.state = .dead) : v'.healthyFlag = false := by
    cases reaches_evolve he with
    | same hs => exact hdown (h.dead (hs.symm.trans hd))
    | closing hs => rw [hs] at hd; cases hd
    | dead _ hf => exact hf
    | draining hs _ => rw [hs] at hd; cases hd
    | idle hs _ => rw [hs] at hd; cases hd
  constructor
  · intro hn
    rw [hev.resident]
    rcases h.closing (fun hc => hn (evolve_closeTask he hc)) with hr | hf
    · exact .inl hr
    · exact .inr (hdown hf)
  · exact hdead
  · intro hn
    rcases evolve_retireTask he with ht | ⟨hd, -⟩
    · exact hdown (h.retiring (by rwa [← ht]))
    · exact hdead hd

end SessionRuntime

variable {phase : TaskPhase} {r : Nat}

namespace TaskPhase

/-- A fresh runtime is nowhere but with its maker, a healthy warm one is in the pool. -/
def Lodges (phase : TaskPhase) (v : SessionRuntime) : Prop :=
  match phase.held with
  | some _ => v.resident = false ∧ v.closeTask = .absent ∧ v.retireTask = .absent
  | none => v.healthyFlag = true → v.resident = true

private theorem Lodges.keeps (h : phase.Lodges v)
    (hr : v'.resident = v.resident) (hf : v'.healthyFlag = true → v.healthyFlag = true)
    (hc : v.closeTask = .absent → v'.closeTask = .absent)
    (ht : v'.retireTask = v.retireTask ∨ v.resident = true) : phase.Lodges v' := by
  unfold Lodges at h ⊢
  split at h
  · obtain ⟨hres, hclose, hretire⟩ := h
    refine ⟨hr.trans hres, hc hclose, ?_⟩
    rcases ht with ht | ht
    · exact ht.trans hretire
    · rw [hres] at ht
      cases ht
  · intro hf'
    rw [hr]
    exact h (hf hf')

private theorem Lodges.settled (h : phase.Lodges v)
    (hr : v.resident = true) : phase.held = none := by
  unfold Lodges at h
  split at h
  · rw [hr] at h
    cases h.1
  · assumption

private theorem lodges_of_unhealthy (hk : phase.held = none)
    (hf : v.healthyFlag = false) : phase.Lodges v := by
  unfold Lodges
  rw [hk]
  intro hf'
  rw [hf] at hf'
  cases hf'

/-- The runtime of a lease, as long as no release of it has come to its decision. -/
def lease : TaskPhase → Option Nat
  | .leased r _ | .releasing r _ _ => some r
  | _ => none

theorem owned_of_lease (h : phase.lease = some r) : phase.owned = some r ∧ phase.held = none := by
  cases phase with
  | leased | releasing => exact ⟨h, rfl⟩
  | _ => cases h

end TaskPhase

namespace PoolSystem

structure Housed (s : PoolSystem) : Prop where
  coherent : ∀ r, (s.heap r).Coherent
  lodges : ∀ t r, (s.tasks t).owned = some r → (s.tasks t).Lodges (s.heap r)

def Vacant (s : PoolSystem) (r : Nat) : Prop :=
  ∀ t, (s.tasks t).owned = some r → (s.tasks t).held = none ∧ (s.heap r).healthyFlag = false

@[simp] theorem setRuntime_heap_self (s : PoolSystem) (r : Nat) (v : SessionRuntime) :
    (s.setRuntime r v).heap r = v := by
  simp [PoolSystem.setRuntime]

private theorem housed_init (capacity : Option Nat) (memory : RuntimeMemorySnapshot) :
    (init capacity memory).Housed where
  coherent _ := ⟨fun hn => absurd rfl hn, (fun hd => by cases hd), fun hn => absurd rfl hn⟩
  lodges _ _ h := by cases h

section Primitives

variable {s : PoolSystem} {t r : Nat}

private theorem Housed.setPool (h : s.Housed) (pool : SessionRuntimePool) : (s.setPool pool).Housed :=
  ⟨h.coherent, h.lodges⟩

private theorem Housed.setRuntime (h : s.Housed) (hc : v.Coherent)
    (hl : ∀ t, (s.tasks t).owned = some r → (s.tasks t).Lodges v) : (s.setRuntime r v).Housed where
  coherent r' := by
    by_cases he : r' = r
    · subst he
      simpa [PoolSystem.setRuntime] using hc
    · simpa [PoolSystem.setRuntime, he] using h.coherent r'
  lodges t r' ho := by
    by_cases he : r' = r
    · subst he
      simpa [PoolSystem.setRuntime] using hl t ho
    · simpa [PoolSystem.setRuntime, he] using h.lodges t r' ho

private theorem Housed.keeps (h : s.Housed) (hc : v.Coherent)
    (hr : v.resident = (s.heap r).resident)
    (hf : v.healthyFlag = true → (s.heap r).healthyFlag = true)
    (ht : v.closeTask = (s.heap r).closeTask) (hm : v.retireTask = (s.heap r).retireTask) :
    (s.setRuntime r v).Housed :=
  h.setRuntime hc fun t ho => (h.lodges t r ho).keeps hr hf (fun ha => ht.trans ha) (.inl hm)

private theorem Housed.setTask (h : s.Housed) (phase : TaskPhase)
    (hl : ∀ r, phase.owned = some r → phase.Lodges (s.heap r)) : (s.setTask t phase).Housed where
  coherent := h.coherent
  lodges t' r ho := by
    by_cases he : t' = t
    · subst he
      simp only [PoolSystem.setTask, Function.update_self] at ho ⊢
      exact hl r ho
    · simp only [PoolSystem.setTask, Function.update_of_ne he] at ho ⊢
      exact h.lodges t' r ho

private theorem Housed.letGo (h : s.Housed) (phase : TaskPhase) (ho : phase.owned = none) :
    (s.setTask t phase).Housed := by
  apply h.setTask
  intro r hr
  rw [ho] at hr
  cases hr

private theorem Housed.spawn (h : s.Housed) (phase : TaskPhase) (ho : phase.owned = none) : (s.spawn phase).Housed := by
  obtain ⟨hc, hl⟩ := h.letGo (t := s.spawned) phase ho
  exact ⟨hc, hl⟩

private theorem Housed.evict (h : s.Housed) (hv : s.Vacant r) : (s.evict r).Housed := by
  apply (h.setPool (s.pool.remove r)).setRuntime (h.coherent r).dismiss
  intro t ho
  obtain ⟨hk, hf⟩ := hv t ho
  apply TaskPhase.lodges_of_unhealthy hk
  have hd : (s.heap r).dismiss.healthyFlag = (s.heap r).healthyFlag := by
    unfold SessionRuntime.dismiss
    rw [SessionRuntime.requestClose_eq]
  rw [hd]
  exact hf

private theorem Vacant.evict (h : s.Vacant r) (r' : Nat) : (s.evict r').Vacant r := by
  intro t ho
  obtain ⟨hk, hf⟩ := h t ho
  refine ⟨hk, ?_⟩
  by_cases he : r = r'
  · subst he
    simp only [PoolSystem.evict, PoolSystem.setRuntime, Function.update_self, SessionRuntime.dismiss]
    rw [SessionRuntime.requestClose_eq]
    exact hf
  · simpa [PoolSystem.evict, PoolSystem.setRuntime, PoolSystem.setPool, he] using hf

private theorem Housed.evictAll (h : s.Housed) {victims : List Nat} (hv : ∀ r ∈ victims, s.Vacant r) :
    (s.evictAll victims).Housed := by
  induction victims generalizing s with
  | nil => exact h
  | cons v rest ih =>
    apply ih (h.evict (hv v List.mem_cons_self))
    intro r hr
    exact (hv r (List.mem_cons_of_mem _ hr)).evict v

private theorem Housed.evictOwn (h : s.Housed) (ho : ∀ t', t' ≠ t → (s.tasks t').owned ≠ some r) :
    ((s.evict r).setTask t (.closing r)).Housed := by
  have hc : (s.setTask t (.closing r)).Housed := h.letGo _ rfl
  have hv : (s.setTask t (.closing r)).Vacant r := by
    intro t' hr
    by_cases he : t' = t
    · subst he
      simp [PoolSystem.setTask, TaskPhase.owned] at hr
    · exact absurd (by simpa [PoolSystem.setTask, he] using hr) (ho t' he)
  exact hc.evict hv

private theorem Housed.closeOwn (h : s.Housed) (hp : phase.owned = none)
    (hr : (s.heap r).resident = false) (ho : ∀ t', t' ≠ t → (s.tasks t').owned ≠ some r) :
    ((s.setRuntime r (s.heap r).requestClose).setTask t phase).Housed := by
  have hc : (s.setTask t phase).Housed := h.letGo _ hp
  apply hc.setRuntime ((h.coherent r).requestClose (.inl hr))
  intro t' hr'
  by_cases he : t' = t
  · subst he
    simp [PoolSystem.setTask, hp] at hr'
  · exact absurd (by simpa [PoolSystem.setTask, he] using hr') (ho t' he)

private theorem Housed.allocate (h : s.Housed) (hb : ∀ t r, (s.tasks t).owned = some r → r < s.allocated)
    (hc : v.Coherent) : (s.allocate v).Housed where
  coherent r := by
    by_cases he : r = s.allocated
    · subst he
      simpa [PoolSystem.allocate] using hc
    · simpa [PoolSystem.allocate, he] using h.coherent r
  lodges t r ho := by
    have he : r ≠ s.allocated := Nat.ne_of_lt (hb t r ho)
    simpa [PoolSystem.allocate, he] using h.lodges t r ho

private theorem Housed.retireBusy (h : s.Housed) (busy : SessionRuntime → Bool) : (s.retireBusy busy).Housed where
  coherent r := by
    simp only [PoolSystem.retireBusy]
    split
    · exact (h.coherent r).same rfl rfl rfl id rfl
    · exact h.coherent r
  lodges t r ho := by
    simp only [PoolSystem.retireBusy]
    split
    · exact (h.lodges t r ho).keeps rfl id id (.inl rfl)
    · exact h.lodges t r ho

private theorem Vacant.retireBusy (h : s.Vacant r) (busy : SessionRuntime → Bool) : (s.retireBusy busy).Vacant r := by
  intro t ho
  obtain ⟨hk, hf⟩ := h t ho
  refine ⟨hk, ?_⟩
  simp only [PoolSystem.retireBusy]
  split
  · exact hf
  · exact hf

private theorem Housed.vacant (h : s.Housed) (hord : s.Ordered) (hres : (s.heap r).resident = true)
    (hx : (s.heap r).expendable = true) : s.Vacant r := by
  intro t ho
  have hk := (h.lodges t r ho).settled hres
  refine ⟨hk, ?_⟩
  by_contra hf
  have hf : (s.heap r).healthyFlag = true := by simpa using hf
  have hdead : (s.heap r).state ≠ .dead := by
    intro hd
    rw [(h.coherent r).dead hd] at hf
    cases hf
  have he : (s.heap r).evictable = true := by
    simpa [SessionRuntime.expendable, SessionRuntime.healthy, hf, hdead] using hx
  exact hord.free_of_evictable hres hf he t ho

end Primitives

section Capacity

variable {s : PoolSystem}

private theorem Housed.vacant_of_expendables (h : s.Housed) (hord : s.Ordered) {preserve : Option String}
    (hr : r ∈ s.pool.expendables s.heap preserve) : s.Vacant r := by
  obtain ⟨⟨k, hk⟩, hx⟩ := SessionRuntimePool.mem_expendables hr
  exact h.vacant hord ((hord.keyed k r).mp hk).1 hx

private theorem Housed.refresh (h : s.Housed) (hord : s.Ordered) (memory : RuntimeMemorySnapshot)
    (preserve : Option String) : (s.refresh memory preserve).Housed := by
  have hp : (s.setPool (s.pool.resized memory)).Housed := h.setPool _
  have hordp : (s.setPool (s.pool.resized memory)).Ordered :=
    hord.setPool rfl (Finset.Subset.refl _)
  have hv (r : Nat) (hr : r ∈ (s.pool.resized memory).refreshVictims s.heap memory preserve) :
      (s.setPool (s.pool.resized memory)).Vacant r :=
    hp.vacant_of_expendables hordp (SessionRuntimePool.mem_refreshVictims hr)
  simp only [PoolSystem.refresh]
  split
  · exact (hp.retireBusy _).evictAll fun r hr => (hv r hr).retireBusy _
  · exact hp.evictAll hv

private theorem Housed.configure (h : s.Housed) (hord : s.Ordered) (capacity : Nat) :
    (s.configure capacity).Housed := by
  have hp : (s.setPool { s.pool with
      capacityOverride := true, activeCapacity := capacity, capacity := capacity }).Housed :=
    h.setPool _
  have hordp : (s.setPool { s.pool with
      capacityOverride := true, activeCapacity := capacity, capacity := capacity }).Ordered :=
    hord.setPool rfl (Finset.Subset.refl _)
  simp only [PoolSystem.configure]
  split
  · apply Housed.retireBusy
    exact hp.evictAll fun r hr =>
      hp.vacant_of_expendables hordp (SessionRuntimePool.mem_overflowVictims hr)
  · exact hp.evictAll fun r hr =>
    hp.vacant_of_expendables hordp (SessionRuntimePool.mem_overflowVictims hr)

private theorem Housed.recycleAll (h : s.Housed) (hord : s.Ordered) : s.recycleAll.Housed := by
  apply (h.retireBusy _).evictAll
  intro r hr
  obtain ⟨hmem, hx⟩ := List.mem_filter.mp hr
  obtain ⟨k, hk⟩ := Dict.mem_values.mp hmem
  exact (h.vacant hord ((hord.keyed k r).mp hk).1 hx).retireBusy _

private theorem Housed.retireLater (h : s.Housed) (r : Nat) : (s.setRuntime r (s.heap r).retireLater).Housed :=
  h.keeps ((h.coherent r).same rfl rfl rfl id rfl) rfl id rfl rfl

private theorem Housed.retireAndEvict (h : s.Housed) (hord : s.Ordered) (hres : (s.heap r).resident = true)
    (hx : (s.heap r).expendable = true) :
    ((s.setRuntime r (s.heap r).retireLater).evict r).Housed := by
  apply (h.retireLater r).evict
  apply (h.retireLater r).vacant (hord.retireLater r)
  · rw [setRuntime_heap_self]
    exact hres
  · rw [setRuntime_heap_self]
    exact hx

private theorem Housed.reserveSession (h : s.Housed) (hord : s.Ordered) (key : String)
    (live cancelActive : Bool) : (s.reserveSession key live cancelActive).Housed := by
  have hp : (s.setPool { s.pool with
      maintenanceKeys := insert key s.pool.maintenanceKeys }).Housed := h.setPool _
  have hordp : (s.setPool { s.pool with
      maintenanceKeys := insert key s.pool.maintenanceKeys }).Ordered :=
    hord.setPool rfl (Finset.Subset.refl _)
  simp only [PoolSystem.reserveSession]
  split
  · exact h
  split
  · exact h
  split
  · exact hp
  · rename_i r hr
    split
    · rename_i he
      apply hp.retireAndEvict hordp ((hord.keyed key r).mp hr).1
      rw [setRuntime_heap_self] at he
      exact Bool.or_eq_true_iff.mpr (.inl he)
    · exact hp.retireLater r

private theorem Housed.reserveSweep (h : s.Housed) (hord : s.Ordered) (key : String) :
    (s.reserveSweep key false).Housed := by
  simp only [PoolSystem.reserveSweep]
  split
  · exact h
  · rename_i r hr
    split
    · rename_i hx
      rw [setRuntime_heap_self] at hx
      apply h.retireAndEvict hord ((hord.keyed key r).mp hr).1
      rcases hx with hx | hx
      · exact hx.2
      · cases hx
    · exact h.retireLater r

end Capacity

variable {now : Nat} {fresh : Bool}

variable {memory : RuntimeMemorySnapshot}

section Turns

variable {s : PoolSystem} {t r : Nat} {args : AcquireArgs}

private theorem Housed.failStart (h : s.Housed) (hf : fresh = true → (s.heap r).resident = false)
    (ho : ∀ t', t' ≠ t → (s.tasks t').owned ≠ some r) : (s.failStart t args r fresh).Housed := by
  cases fresh with
  | true => exact h.closeOwn rfl (hf rfl) ho
  | false => exact h.evictOwn ho

private theorem Housed.register (h : s.Housed) (hres : (s.heap r).resident = false)
    (hc : (s.heap r).closeTask = .absent) (ho : ∀ t', t' ≠ t → (s.tasks t').owned ≠ some r) :
    (s.register t args r).Housed := by
  have hp := h.setPool (s.pool.discardStarting args.key)
  simp only [PoolSystem.register]
  split
  · exact hp.closeOwn rfl hres ho
  · have hover : ((s.setPool ((s.pool.discardStarting args.key).enter args.key r)).setTask t
        .ended).Housed := (h.setPool _).letGo _ rfl
    have hin (late : Bool) : (((s.setPool ((s.pool.discardStarting args.key).enter args.key
        r)).setTask t .ended).setRuntime r ((s.heap r).moveIn late)).Housed := by
      apply hover.setRuntime ((h.coherent r).moveIn hc late)
      intro t' hr
      by_cases he : t' = t
      · subst he
        simp [PoolSystem.setTask, TaskPhase.owned] at hr
      · exact absurd (by simpa [PoolSystem.setTask, PoolSystem.setPool, he] using hr) (ho t' he)
    rw [← setTask_setTask _ t .ended]
    apply (hin _).setTask (.leased r args.mode)
    intro r' hr
    cases hr
    rw [setRuntime_heap_self]
    exact fun _ => rfl

private theorem Housed.takeSwitched (h : s.Housed) (hord : s.Ordered)
    (ht : s.tasks t = .switching args r fresh) : (s.takeTurn t args r fresh now).Housed := by
  have hr : (s.tasks t).owned = some r := by rw [ht]; rfl
  have hl := h.lodges t r hr
  rw [ht] at hl
  have hown : (s.setRuntime r ((s.heap r).ownTurn t args.binding args.mode now)).Housed :=
    h.keeps ((h.coherent r).ownTurn t args.binding args.mode now) rfl id rfl rfl
  have ho (t' : Nat) (hne : t' ≠ t) : (s.tasks t').owned ≠ some r :=
    fun hr' => hne (hord.tenants t' t r hr' hr)
  simp only [PoolSystem.takeTurn]
  split
  · refine hown.failStart ?_ ho
    rintro rfl
    rw [setRuntime_heap_self]
    exact hl.1
  split
  · rename_i hfresh
    subst hfresh
    refine hown.register ?_ ?_ ho
    · rw [setRuntime_heap_self]
      exact hl.1
    · rw [setRuntime_heap_self]
      exact hl.2.1
  · rename_i hwarm
    obtain rfl : fresh = false := by simpa using hwarm
    apply hown.setTask (.leased r args.mode)
    intro r' hr'
    cases hr'
    rw [setRuntime_heap_self]
    exact hl

private theorem Housed.beginTurn (h : (s.setTask t (.switching args r fresh)).Housed)
    (hord : (s.setTask t (.switching args r fresh)).Ordered) :
    (s.beginTurn t args r fresh now).Housed :=
  beginTurn_cases (P := PoolSystem.Housed) h fun ht => h.takeSwitched hord ht

private theorem Housed.startRuntime (h : s.Housed) (hord : s.Ordered) (now : Nat) :
    (s.startRuntime t args now).Housed := by
  apply (h.allocate hord.below (SessionRuntime.coherent_create args.key args.options now)).setTask
  intro r hr
  cases hr
  rw [show (s.allocate (.create args.key args.options now)).heap s.allocated =
    .create args.key args.options now by simp [PoolSystem.allocate]]
  exact ⟨rfl, rfl, rfl⟩

theorem Ordered.expendable_of_evict (hord : s.Ordered) {victim : Nat}
    (hadm : s.pool.admission s.heap args.key args.options memory = .evict victim) :
    (s.heap victim).resident = true ∧ (s.heap victim).expendable = true := by
  obtain ⟨hclear, hlookup | ⟨-, -, hv⟩⟩ := SessionRuntimePool.admission_backed hadm nofun
  · refine ⟨((hord.keyed args.key victim).mp hlookup).1, ?_⟩
    by_cases hh : (s.heap victim).healthy = true
    · exact Bool.or_eq_true_iff.mpr (.inl (hclear.idle victim hlookup hh))
    · exact Bool.or_eq_true_iff.mpr (.inr (by simpa using hh))
  · obtain ⟨⟨k, hk⟩, hx⟩ := SessionRuntimePool.mem_expendables hv
    exact ⟨((hord.keyed k victim).mp hk).1, hx⟩

private theorem Housed.enter (h : s.Housed) (hord : s.Ordered)
    {deferred : Bool} (ht : s.tasks t ≠ .new) :
    (s.enter t args memory deferred now).Housed := by
  unfold PoolSystem.enter
  split
  · exact h.letGo _ rfl
  · rename_i r hadm
    obtain ⟨hres, hfree⟩ := hord.free_of_reuse hadm
    have hreserved (writes : Bool) : (s.setRuntime r ((s.heap r).reserve writes)).Housed :=
      h.keeps ((h.coherent r).same rfl rfl rfl (fun hd => by cases hd) rfl) rfl id rfl rfl
    simp only
    split
    · exact (hreserved _).failStart (fun hn => by cases hn) fun t' _ => hfree t'
    · refine Housed.beginTurn ?_ (hord.reserveTurn hadm ht)
      apply (hreserved _).setTask
      intro r' hr
      cases hr
      rw [setRuntime_heap_self]
      exact fun _ => hres
  · rename_i victim hadm
    obtain ⟨hres, hx⟩ := hord.expendable_of_evict hadm
    exact ((h.evict (h.vacant hord hres hx)).setPool _).letGo _ rfl
  · refine (h.setPool _).startRuntime ?_ now
    exact hord.setPool rfl (Finset.subset_insert _ _)

private theorem Housed.remap (h : s.Housed) (sessionId : String) : (s.remap r sessionId).Housed := by
  unfold PoolSystem.remap
  split
  · exact h
  split
  · exact h.keeps (SessionRuntime.coherent_of_unhealthy rfl) rfl (fun hf => by cases hf) rfl rfl
  · exact (h.setPool _).keeps ((h.coherent r).same rfl rfl rfl id rfl) rfl id rfl rfl

private theorem Housed.finishRelease (h : s.Housed) (hord : s.Ordered) {mode : PermissionMode}
    {rargs : ReleaseArgs} (ht : s.tasks t = .releasing r mode rargs) (safe reset : Bool)
    (unread : List UnreadFrame) (now : Nat) :
    (s.finishRelease t r rargs safe reset unread now).Housed := by
  have hr : (s.tasks t).owned = some r := by rw [ht]; rfl
  have hfinish (v : SessionRuntime) (hc : v.Coherent) (hres : v.resident = (s.heap r).resident)
      (hf : v.healthyFlag = (s.heap r).healthyFlag) (hclose : v.closeTask = (s.heap r).closeTask)
      (hretire : v.retireTask = (s.heap r).retireTask) (unread : List (PeerEnv × Frame))
      (tainted keepWarm : Bool) :
      (s.setRuntime r (v.finishTurn unread tainted keepWarm now)).Housed := by
    apply h.keeps (hc.finishTurn unread tainted keepWarm now)
    · rw [SessionRuntime.finishTurn_eq]
      exact hres
    · intro hf'
      rw [← hf]
      exact (SessionRuntime.finishTurn_flag hf').1
    · rw [SessionRuntime.finishTurn_eq]
      exact hclose
    · rw [SessionRuntime.finishTurn_eq]
      exact hretire
  have hsettle (v : SessionRuntime) (hv : (s.setRuntime r v).Housed) :
      ((s.setRuntime r v).settleRelease t r rargs.keepWarm).Housed := by
    unfold PoolSystem.settleRelease
    split
    · exact hv.evictOwn fun t' hne hr' => hne (hord.tenants t' t r hr' hr)
    · exact hv.letGo _ rfl
  simp only [PoolSystem.finishRelease]
  apply hsettle
  apply hfinish
  · split
    · exact (h.coherent r).same rfl rfl rfl id rfl
    · exact h.coherent r
  all_goals split <;> rfl

end Turns

/-- The deadline of `reserve_session(cancel_active=True)` closes a runtime in the middle of its
turn. -/
def expires : PoolEvent → Bool
  | .reserveSweep _ expired => expired
  | _ => false

section Steps

variable {s s' : PoolSystem}

private theorem Housed.evolve (h : s.Housed) (hv : (s.heap r).evolve e = some v) :
    (s.setRuntime r v).Housed := by
  have hev := SessionRuntime.evolves_evolve hv
  apply h.setRuntime ((h.coherent r).evolve hv)
  intro t ho
  apply (h.lodges t r ho).keeps hev.resident hev.flag (SessionRuntime.evolve_closeTask hv)
  exact (SessionRuntime.evolve_retireTask hv).imp_right And.right

private theorem Housed.vacant_of_retiring (h : s.Housed)
    (hr : (s.heap r).retireTask ≠ .absent) : s.Vacant r := by
  intro t ho
  refine ⟨?_, (h.coherent r).retiring hr⟩
  have hl := h.lodges t r ho
  unfold TaskPhase.Lodges at hl
  split at hl
  · exact absurd hl.2.2 hr
  · assumption

private theorem Housed.setVacant (h : s.Housed) (hv : s.Vacant r)
    (hf : v.healthyFlag = false) : (s.setRuntime r v).Housed := by
  apply h.setRuntime (SessionRuntime.coherent_of_unhealthy hf)
  intro t ho
  exact TaskPhase.lodges_of_unhealthy (hv t ho).1 hf

private theorem Housed.retire (h : s.Housed) (hr : (s.heap r).retireTask = .scheduled) :
    (s.setRuntime r ((s.heap r).requestClose.setRetireTask .closing)).Housed := by
  have hne : (s.heap r).retireTask ≠ .absent := by simp [hr]
  apply h.setVacant (h.vacant_of_retiring hne)
  rw [SessionRuntime.requestClose_eq]
  exact (h.coherent r).retiring hne

private theorem Housed.retired (h : s.Housed) (hr : (s.heap r).retireTask = .closing) :
    ((s.setRuntime r ((s.heap r).setRetireTask .done)).evict r).Housed := by
  have hne : (s.heap r).retireTask ≠ .absent := by simp [hr]
  have hf := (h.coherent r).retiring hne
  have hv := h.vacant_of_retiring hne
  have hdone : (s.setRuntime r ((s.heap r).setRetireTask .done)).Housed := h.setVacant hv hf
  apply hdone.evict
  intro t ho
  rw [setRuntime_heap_self]
  exact ⟨(hv t ho).1, hf⟩

private theorem Housed.connected (h : s.Housed) (hord : s.Ordered) {t r : Nat} {args : AcquireArgs}
    (now : Nat) (hp : s.tasks t = .connecting args r) :
    ((s.setRuntime r ((s.heap r).connected now)).beginTurn t args r true now).Housed := by
  have hl := h.lodges t r (by rw [hp]; rfl)
  rw [hp] at hl
  have hc : (s.setRuntime r ((s.heap r).connected now)).Housed :=
    h.keeps ((h.coherent r).same rfl rfl rfl (fun hd => by cases hd) rfl) rfl id rfl rfl
  refine Housed.beginTurn ?_ (hord.connectedTurn now hp)
  apply hc.setTask
  intro r' hr
  cases hr
  rw [setRuntime_heap_self]
  exact hl

private theorem Housed.switched (h : s.Housed) (hord : s.Ordered) {t : Nat}
    (hs : s.step (.switched t now) = some s') : s'.Housed := by
  simp only [PoolSystem.step] at hs
  split at hs
  · rename_i args r fresh hp
    have hl := h.lodges t r (by rw [hp]; rfl)
    rw [hp] at hl
    have hm : (s.setRuntime r ((s.heap r).setPermissionMode args.mode)).Housed :=
      h.keeps ((h.coherent r).same rfl rfl rfl id rfl) rfl id rfl rfl
    split at hs <;> cases hs
    · apply hm.setTask
      intro r' hr
      cases hr
      rw [setRuntime_heap_self]
      cases fresh <;> exact hl
    · refine hm.takeSwitched ?_ hp
      exact hord.evolves (SessionRuntime.evolves_setPermissionMode _ _) fun _ _ _ _ hs => hs
  · cases hs

private theorem Housed.dropBinding (h : s.Housed) (r : Nat) : (s.setRuntime r (s.heap r).dropBinding).Housed := by
  rw [SessionRuntime.dropBinding_eq]
  exact h.keeps ((h.coherent r).same rfl rfl rfl id rfl) rfl id rfl rfl

private theorem Housed.failOwn (h : s.Housed) (hord : s.Ordered) {t r : Nat} {args : AcquireArgs}
    (hr : (s.tasks t).owned = some r)
    (hk : fresh = true → (s.tasks t).held ≠ none) : (s.failStart t args r fresh).Housed := by
  apply h.failStart
  · intro hfresh
    by_contra hn
    exact hk hfresh ((h.lodges t r hr).settled (by simpa using hn))
  · exact fun t' hne hr' => hne (hord.tenants t' t r hr' hr)

private theorem Housed.step (h : s.Housed) (hord : s.Ordered) {e : PoolEvent} (he : expires e = false)
    (hs : s.step e = some s') : s'.Housed := by
  cases step_moves hs with
  | acquire args memory =>
    exact (h.refresh hord memory (some args.key)).spawn _ rfl
  | admission t deferred now hp =>
    exact h.enter hord (by simp [hp])
  | evicted t now =>
    exact h.startRuntime hord now
  | connected t now hp => exact h.connected hord now hp
  | @connectFails t args r hp =>
    have hr : (s.tasks t).owned = some r := by rw [hp]; rfl
    have hpoison : (s.setRuntime r (s.heap r).poison).Housed :=
      h.keeps (SessionRuntime.coherent_of_unhealthy rfl) rfl (fun hf => by cases hf) rfl rfl
    have hl := h.lodges t r hr
    rw [hp] at hl
    have hclose := hpoison.closeOwn (r := r) (t := t)
      (show (TaskPhase.connectFailing args.key r).owned = none from rfl)
      (by rw [setRuntime_heap_self]; exact hl.1)
      fun t' hne hr' => hne (hord.tenants t' t r hr' hr)
    simpa [PoolSystem.setRuntime] using hclose
  | switched t now | blocked t now => exact h.switched hord hs
  | @reverted t args r fresh hp =>
    have hm : (s.setRuntime r ((s.heap r).setPermissionMode idlePermissionMode)).Housed :=
      h.keeps ((h.coherent r).same rfl rfl rfl id rfl) rfl id rfl rfl
    have hordm : (s.setRuntime r ((s.heap r).setPermissionMode idlePermissionMode)).Ordered :=
      hord.evolves (SessionRuntime.evolves_setPermissionMode _ _) fun _ _ _ _ hs => hs
    refine hm.failOwn hordm ?_ ?_
    · simp [PoolSystem.setRuntime, hp, TaskPhase.owned]
    · rintro rfl
      simp [PoolSystem.setRuntime, hp, TaskPhase.held]
  | startFails t hp =>
    rcases hp with hp | hp
    all_goals
      refine h.failOwn hord (by rw [hp]; rfl) ?_
      rintro rfl
      rw [hp]
      intro hn
      cases hn
  | discarded => exact (h.setPool _).letGo _ rfl
  | closed | aborted | cancelEviction | cancelConnect | cancelFailing => exact h.letGo _ rfl
  | unbindTurn t =>
    exact h.dropBinding _
  | resetTurn t =>
    exact h.keeps ((h.coherent _).same rfl rfl rfl id rfl) rfl id rfl rfl
  | remap t sessionId =>
    exact h.remap sessionId
  | @release t args r mode hp =>
    have hd := h.dropBinding r
    have hl := hd.lodges t r (by simp [PoolSystem.setRuntime, hp, TaskPhase.owned])
    rw [show (s.setRuntime r (s.heap r).dropBinding).tasks t = .leased r mode from hp] at hl
    apply hd.setTask
    intro r' hr
    cases hr
    exact hl
  | quiesced t safe reset unread now hp =>
    exact h.finishRelease hord hp safe reset unread now
  | @releaseFails t r _ _ hp =>
    exact h.evictOwn fun t' hne hr' => hne (hord.tenants t' t r hr' (by rw [hp]; rfl))
  | evolve r e memory _ hv => exact h.evolve hv
  | refreshCapacity memory preserve =>
    exact h.refresh hord memory preserve
  | configure capacity =>
    exact h.configure hord capacity
  | unconfigured =>
    exact h
  | recycleAll =>
    exact h.recycleAll hord
  | reserveSession key live cancelActive =>
    exact h.reserveSession hord key live cancelActive
  | reserveSweep key expired =>
    obtain rfl : expired = false := he
    exact h.reserveSweep hord key
  | releaseMaintenance key =>
    exact h.setPool _
  | retire r hr => exact h.retire hr
  | retired r hr => exact h.retired hr.1

end Steps

/-- A healthy runtime with a lease is in the pool, nobody closes it, and it has no other lease. -/
structure LeasesKept (s : PoolSystem) : Prop where
  kept : ∀ t r, (s.tasks t).lease = some r → (s.heap r).healthy = true →
    s.pool.runtimes.lookup (s.heap r).key = some r ∧ (s.heap r).closeTask = .absent
  unique : ∀ t t' r, (s.tasks t).lease = some r → (s.tasks t').lease = some r → t = t'

private theorem Housed.leasesKept {s : PoolSystem} (h : s.Housed) (hord : s.Ordered) : s.LeasesKept where
  kept t r hl hh := by
    obtain ⟨ho, hk⟩ := TaskPhase.owned_of_lease hl
    have hf : (s.heap r).healthyFlag = true := by
      simp only [SessionRuntime.healthy, Bool.and_eq_true] at hh
      exact hh.1
    have hres : (s.heap r).resident = true := by
      have hlodges := h.lodges t r ho
      unfold TaskPhase.Lodges at hlodges
      rw [hk] at hlodges
      exact hlodges hf
    refine ⟨(hord.keyed _ r).mpr ⟨hres, rfl⟩, ?_⟩
    by_contra hn
    rcases (h.coherent r).closing hn with hr | hf'
    · rw [hr] at hres
      cases hres
    · rw [hf'] at hf
      cases hf
  unique t t' r hl hl' :=
    hord.tenants t t' r (TaskPhase.owned_of_lease hl).1 (TaskPhase.owned_of_lease hl').1

/-- Whatever the interleaving, a lease keeps its runtime, unless the turn of a peer ends on a runtime
that an `acquire` has just reserved. -/
theorem leasesKept_of_keepsReservation (capacity : Option Nat) (memory : RuntimeMemorySnapshot)
    (es : List PoolEvent) (s : PoolSystem) (hx : ∀ e ∈ es, expires e = false)
    (hm : RunMeets step KeepsReservation (init capacity memory) es)
    (hr : run step (init capacity memory) es = some s) : s.LeasesKept := by
  have hstep (s : PoolSystem) (e : PoolEvent) (s' : PoolSystem) (hi : s.Ordered ∧ s.Housed)
      (hc : expires e = false ∧ KeepsReservation s e) (hs : s.step e = some s') :
      s'.Ordered ∧ s'.Housed :=
    ⟨hi.1.step hc.2 hs, hi.2.step hi.1 hc.1 hs⟩
  obtain ⟨hord, h⟩ := run_invariant hstep
    ⟨ordered_init capacity memory, housed_init capacity memory⟩ (hm.and_mem hx) hr
  exact h.leasesKept hord

def userArgs (key : String) : AcquireArgs where
  key := key
  options := { cwd := some ["w"] }
  binding := { run := 1, effectiveMode := .default, enableFeedback := true, hasCoordinator := true }

/-- The turn of task `t`, after which its runtime stays warm. -/
def warmUp (key : String) (t : Nat) : List PoolEvent :=
  [.acquire (userArgs key) {}, .admission t false 1, .connected t 2, .switched t 3,
    .release t ⟨true, false⟩, .quiesced t true true [] 4]

def peerBegins (r : Nat) : PoolEvent :=
  .evolve r (.frame {}
    { type := .user, originKind := some "peer", parsed := .message (some "user") }) {}

def peerEnds (r : Nat) : PoolEvent :=
  .evolve r (.frame {} { type := .result, parsed := .message (some "result") }) {}

/-- A peer turn on a warm runtime, and a user turn after it. -/
def peerThenTurn : List PoolEvent :=
  warmUp "a" 0 ++ [peerBegins 0, peerEnds 0, .acquire (userArgs "a") {}, .admission 1 false 5,
    .switched 1 6, .recycleAll]

theorem leasesKept_peerThenTurn : ∃ s, run step (init (some 2) {}) peerThenTurn = some s ∧
      (s.tasks 1).lease = some 0 ∧ (s.heap 0).healthy = true ∧ s.LeasesKept := by
  obtain ⟨s, hr, ht⟩ := exists_run_of_map step (init (some 2) {}) peerThenTurn
    (fun s => (s.tasks 1).lease = some 0 ∧ (s.heap 0).healthy = true) (by decide)
  obtain ⟨hl, hh⟩ := of_decide_eq_true ht
  exact ⟨s, hr, hl, hh, leasesKept_of_keepsReservation (some 2) {} peerThenTurn s (by decide)
    (by decide) hr⟩

/-- A peer turn comes and goes while task 1 switches the mode. The runtime looks idle, task 2
reserves it as well, loses to task 1 and discards the runtime under the lease of task 1. -/
def reservedTwice : List PoolEvent :=
  warmUp "a" 0 ++ [.acquire (userArgs "a") {}, .admission 1 false 5, peerBegins 0, peerEnds 0,
    .acquire (userArgs "a") {}, .admission 2 false 6, .switched 1 7, .switched 2 8, .reverted 2]

theorem reservedTwice_not_leasesKept : (∀ e ∈ reservedTwice, expires e = false) ∧
      ∃ s, run step (init (some 2) {}) reservedTwice = some s ∧ ¬s.LeasesKept := by
  refine ⟨by decide, ?_⟩
  obtain ⟨s, hr, ht⟩ := exists_run_of_map step (init (some 2) {}) reservedTwice
    (fun s => (s.tasks 1).lease = some 0 ∧ (s.heap 0).healthy = true ∧
      (s.heap 0).closeTask = .scheduled) (by decide)
  obtain ⟨hl, hh, hc⟩ := of_decide_eq_true ht
  refine ⟨s, hr, fun h => ?_⟩
  have habsent := (h.kept 1 0 hl hh).2
  rw [hc] at habsent
  cases habsent

end PoolSystem

end PrivaCloud.AgentRunner
