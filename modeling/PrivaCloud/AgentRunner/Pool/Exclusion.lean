import PrivaCloud.AgentRunner.Pool.Barring

/-!
# A maintenance is exclusive

A call of `reserve_session` keeps its key in `_maintenance_keys` from its first section until its lease is
released, and both sections of `acquire` look there. `remap` does not, so a turn can bring its runtime under
a reserved key; the other exception is a peer turn that ends on a runtime which an `acquire` has reserved.
-/

namespace PrivaCloud.AgentRunner

open Framework

variable {k : String}

private theorem SessionRuntime.Pending.mono {v : SessionRuntime} {closing closing' : Prop}
    (h : v.Pending k closing) (hc : closing → closing') : v.Pending k closing' where
  key := h.key
  ready hs := by
    obtain ⟨hf, hb, hclosing⟩ := h.ready hs
    exact ⟨hf, hb, fun hr => hc (hclosing hr)⟩

private theorem SessionRuntime.Pending.of_closeBegun {v : SessionRuntime} {closing closing' : Prop}
    (h : v.Pending k closing) (hb : v.closeBegun = true) : v.Pending k closing' := by
  apply pending_of_unready h.key
  intro hs
  rw [(h.ready hs).2.1] at hb
  cases hb

namespace MaintenancePhase

private theorem active_of_past {p : MaintenancePhase} (h : p.past = some k) : p.active = some k := by
  cases p with
  | closingNow key r cancelActive =>
    cases cancelActive with
    | false => exact h
    | true => cases h
  | closingVictim | held | releasing => exact h
  | new | sweeping | ended => cases h

private theorem past_of_lease {p : MaintenancePhase} (h : p.lease = some k) : p.past = some k := by
  cases p with
  | held | releasing => exact h
  | new | closingNow | sweeping | closingVictim | ended => cases h

end MaintenancePhase

variable {r : Nat}

private theorem PoolSystem.lookup_evict {s : PoolSystem}
    (h : s.pool.runtimes.lookup k = none ∨ s.pool.runtimes.lookup k = some r) :
    (s.evict r).pool.runtimes.lookup k = none := by
  cases hl : (s.evict r).pool.runtimes.lookup k with
  | none => rfl
  | some r' =>
    simp only [PoolSystem.evict, PoolSystem.setPool, PoolSystem.setRuntime,
      SessionRuntimePool.remove, Dict.lookup_popValue] at hl
    rw [hl.1] at h
    rcases h with h | h
    · cases h
    · exact absurd (Option.some.inj h) hl.2

namespace MaintenanceSystem

def Victim (s : MaintenanceSystem) (r : Nat) (k : String) : Prop :=
  ∃ c, s.callers c = .closingVictim k r

/-- The reserved keys are those of the calls that are not over, one call each. -/
structure Registered (s : MaintenanceSystem) : Prop where
  reserved : ∀ c k, (s.callers c).active = some k → k ∈ s.pool.pool.maintenanceKeys
  unique : ∀ c c' k, (s.callers c).active = some k → (s.callers c').active = some k → c = c'
  owned : ∀ k ∈ s.pool.pool.maintenanceKeys, ∃ c, (s.callers c).active = some k
  uncalled : ∀ c, s.called ≤ c → s.callers c = .new

/-- What the calls keep to, while the pool reserves `keys`. -/
def Registered.ledger {s : MaintenanceSystem} (h : s.Registered) (keys : Finset String)
    (hk : s.pool.pool.maintenanceKeys ⊆ keys) : MaintenanceLedger where
  keys := keys
  past k := ∃ c, (s.callers c).past = some k
  held k := ∃ c, (s.callers c).lease = some k
  victim := s.Victim
  asked t := (s.pool.tasks t).acquireKey
  past_keys := by
    rintro k ⟨c, hp⟩
    exact hk (h.reserved c k (MaintenancePhase.active_of_past hp))
  held_past := by
    rintro k ⟨c, hl⟩
    exact ⟨c, MaintenancePhase.past_of_lease hl⟩
  victim_held := by
    rintro r k ⟨c, hv⟩ ⟨c', hl⟩
    have hactive := MaintenancePhase.active_of_past (MaintenancePhase.past_of_lease hl)
    have heq := h.unique c c' k (by rw [hv]; rfl) hactive
    rw [← heq, hv] at hl
    cases hl

structure Inv (s : MaintenanceSystem) : Prop where
  registered : s.Registered
  ordered : s.pool.Ordered
  watched : s.pool.Watched fun _ => True
  empty : ∀ c k, (s.callers c).past = some k → s.pool.pool.runtimes.lookup k = none
  pending : ∀ t args r, s.pool.tasks t = .switching args r false →
    (s.pool.heap r).Pending args.key (s.Victim r args.key)

private theorem inv_init (capacity : Option Nat) (memory : RuntimeMemorySnapshot) : (init capacity memory).Inv where
  registered := by
    refine ⟨?_, ?_, ?_, ?_⟩
    · intro c k h
      cases h
    · intro c c' k h
      cases h
    · intro k hk
      simp [init, PoolSystem.init, SessionRuntimePool.init] at hk
    · intro c _
      rfl
  ordered := PoolSystem.ordered_init capacity memory
  watched := PoolSystem.watched_init _ capacity memory
  empty _ _ h := by cases h
  pending _ _ _ h := by cases h

variable {p : PoolSystem}

section Calls

variable {s : MaintenanceSystem} {c : Nat} {key : String} {phase : MaintenancePhase}

private theorem acquireKey_of_lease {p : TaskPhase} (h : p.lease = some r) : p.acquireKey = none := by
  cases p with
  | leased | releasing => rfl
  | new | refreshing | evicting | connecting | switching | reverting | connectFailing | failing | closing
  | finishing | ended => cases h

private theorem Inv.barred (h : s.Inv) : s.pool.Barred (h.registered.ledger _ (Finset.Subset.refl _)) where
  keys := rfl
  empty := by
    rintro k ⟨c, hp⟩
    exact h.empty c k hp
  pending := h.pending
  leases t r hl k hk := by
    have hk' : (s.pool.tasks t).acquireKey = some k := hk
    rw [acquireKey_of_lease hl] at hk'
    cases hk'

private theorem Registered.move (h : s.Registered) (ha : (s.callers c).active = some key)
    (hp : phase.active = some key)
    (hk : p.pool.maintenanceKeys = s.pool.pool.maintenanceKeys) :
    ((s.setPool p).setCaller c phase).Registered := by
  have hactive (c' : Nat) : (((s.setPool p).setCaller c phase).callers c').active = (s.callers c').active := by
    by_cases he : c' = c
    · simp [setCaller, setPool, he, ha, hp]
    · simp [setCaller, setPool, he]
  constructor
  · intro c' k hc
    rw [hactive] at hc
    exact hk ▸ h.reserved c' k hc
  · intro c₁ c₂ k h₁ h₂
    rw [hactive] at h₁ h₂
    exact h.unique c₁ c₂ k h₁ h₂
  · intro k hmem
    obtain ⟨c', hc⟩ := h.owned k (hk ▸ hmem)
    exact ⟨c', (hactive c').trans hc⟩
  · intro c' hc
    have hne : c' ≠ c := by
      rintro rfl
      rw [h.uncalled c' hc] at ha
      cases ha
    simpa [setCaller, setPool, hne] using h.uncalled c' hc

private theorem empty_setCaller (hold : ∀ c k, (s.callers c).past = some k →
      p.pool.runtimes.lookup k = none)
    (hnew : ∀ k, phase.past = some k → p.pool.runtimes.lookup k = none) (c' : Nat) (k : String)
    (hc : (((s.setPool p).setCaller c phase).callers c').past = some k) :
    p.pool.runtimes.lookup k = none := by
  by_cases he : c' = c
  · rw [he] at hc
    simp only [setCaller, Function.update_self] at hc
    exact hnew k hc
  · simp only [setCaller, setPool, Function.update_of_ne he] at hc
    exact hold c' k hc

private theorem Inv.waits (h : s.Inv) (ha : (s.callers c).active = some key)
    (hv : ∀ r, s.callers c = .closingVictim key r → (s.pool.heap r).closeBegun = true) {t : Nat}
    {args : AcquireArgs} (ht : s.pool.tasks t = .switching args r false) :
    (s.pool.heap r).Pending args.key (∃ c', c' ≠ c ∧ s.callers c' = .closingVictim args.key r) := by
  have hpending := h.pending t args r ht
  by_cases hb : (s.pool.heap r).closeBegun = true
  · exact hpending.of_closeBegun hb
  · apply hpending.mono
    rintro ⟨c', hc⟩
    refine ⟨c', ?_, hc⟩
    rintro rfl
    have hkey : args.key = key := by
      rw [hc] at ha
      exact Option.some.inj ha
    exact hb (hv r (hkey ▸ hc))

private theorem Inv.advance (h : s.Inv) (ha : (s.callers c).active = some key) (hp : phase.active = some key)
    (hv : ∀ r, s.callers c = .closingVictim key r → (s.pool.heap r).closeBegun = true)
    (he : ∀ k, phase.past = some k → s.pool.pool.runtimes.lookup k = none) :
    (s.setCaller c phase).Inv where
  registered := h.registered.move (p := s.pool) ha hp rfl
  ordered := h.ordered
  watched := h.watched
  empty := empty_setCaller (p := s.pool) h.empty he
  pending t args r ht := by
    apply (h.waits ha hv ht).mono
    rintro ⟨c', hne, hc⟩
    exact ⟨c', by simpa [setCaller, hne] using hc⟩

private theorem Inv.giveBack (h : s.Inv) (ha : (s.callers c).active = some key)
    (hv : ∀ r, s.callers c = .closingVictim key r → (s.pool.heap r).closeBegun = true) :
    ((s.releaseMaintenance key).setCaller c .ended).Inv where
  registered := by
    have hother {c' : Nat} {k : String}
        (hc : (((s.releaseMaintenance key).setCaller c .ended).callers c').active = some k) :
        c' ≠ c ∧ (s.callers c').active = some k := by
      by_cases he : c' = c
      · simp [setCaller, he, MaintenancePhase.active] at hc
      · exact ⟨he, by simpa [setCaller, releaseMaintenance, setPool, he] using hc⟩
    constructor
    · intro c' k hc
      obtain ⟨hne, hactive⟩ := hother hc
      have hk : k ≠ key := by
        rintro rfl
        exact hne (h.registered.unique c' c k hactive ha)
      exact Finset.mem_erase.mpr ⟨hk, h.registered.reserved c' k hactive⟩
    · intro c₁ c₂ k h₁ h₂
      exact h.registered.unique c₁ c₂ k (hother h₁).2 (hother h₂).2
    · intro k hk
      obtain ⟨hne, hmem⟩ := Finset.mem_erase.mp hk
      obtain ⟨c', hc⟩ := h.registered.owned k hmem
      have hcc : c' ≠ c := by
        rintro rfl
        rw [ha] at hc
        exact hne (Option.some.inj hc).symm
      exact ⟨c', by simpa [setCaller, releaseMaintenance, setPool, hcc] using hc⟩
    · intro c' hc
      have hne : c' ≠ c := by
        rintro rfl
        rw [h.registered.uncalled c' hc] at ha
        cases ha
      simpa [setCaller, releaseMaintenance, setPool, hne] using h.registered.uncalled c' hc
  ordered := h.ordered.setPool rfl (Finset.Subset.refl _)
  watched := h.watched.setPool h.watched.resident
  empty := by
    intro c' k hc
    apply empty_setCaller (p := s.pool) h.empty ?_ c' k hc
    intro k hp
    cases hp
  pending t args r ht := by
    apply (h.waits ha hv ht).mono
    rintro ⟨c', hne, hc⟩
    exact ⟨c', by simpa [setCaller, releaseMaintenance, setPool, hne] using hc⟩

private theorem Inv.takeVictim (h : s.Inv) (ha : (s.callers c).active = some key)
    (hv : ∀ r, s.callers c ≠ .closingVictim key r)
    (hl : s.pool.pool.runtimes.lookup key = some r) :
    ((s.setPool ((s.pool.setRuntime r (s.pool.heap r).retireLater).evict r)).setCaller c
      (.closingVictim key r)).Inv where
  registered := h.registered.move ha rfl rfl
  ordered := (h.ordered.retireLater r).evict r
  watched := (h.watched.retireLater r).evict (h.watched.known (h.watched.resident key r hl).1)
  empty := by
    apply empty_setCaller
    · intro c' k hc
      exact PoolSystem.lookup_evict (.inl (h.empty c' k hc))
    · intro k hk
      cases hk
      exact PoolSystem.lookup_evict (.inr hl)
  pending t args r' ht := by
    have ht : s.pool.tasks t = .switching args r' false := ht
    obtain ⟨hres, hkey⟩ := (h.ordered.keyed key r).mp hl
    have hold := h.pending t args r' ht
    by_cases he : r' = r
    · rw [he] at hold
      have hsame : args.key = key := (hold.key hres).symm.trans hkey
      have hbegun (hs : (s.pool.heap r).state = .idle ∨ (s.pool.heap r).state = .starting) :
          (s.pool.heap r).retireLater.dismiss.closeBegun = false :=
        SessionRuntime.requestClose_unbegun (v := (s.pool.heap r).retireLater) (hold.ready hs).2.1
      have hnew : (s.pool.heap r).retireLater.dismiss.Pending args.key True := by
        constructor
        · intro hgone
          cases hgone
        · intro hs
          rw [SessionRuntime.dismiss, SessionRuntime.requestClose_eq] at hs
          refine ⟨?_, hbegun hs, fun _ => trivial⟩
          rw [SessionRuntime.dismiss, SessionRuntime.requestClose_eq]
          exact (hold.ready hs).1
      rw [he]
      simp only [setPool, setCaller, PoolSystem.evict, PoolSystem.setRuntime_heap_self]
      exact hnew.mono fun _ => ⟨c, by simp [hsame]⟩
    · have hheap : ((s.pool.setRuntime r (s.pool.heap r).retireLater).evict r).heap r' = s.pool.heap r' := by
        simp [PoolSystem.evict, PoolSystem.setRuntime, PoolSystem.setPool, he]
      simp only [setPool, setCaller, hheap]
      apply hold.mono
      rintro ⟨c', hc⟩
      have hne : c' ≠ c := by
        rintro rfl
        have hk : args.key = key := by
          rw [hc] at ha
          exact Option.some.inj ha
        exact hv r' (hk ▸ hc)
      exact ⟨c', by simpa [hne] using hc⟩

private theorem Inv.retireLater (h : s.Inv) (r : Nat) :
    (s.setPool (s.pool.setRuntime r (s.pool.heap r).retireLater)).Inv := by
  have hb := h.barred.retireLater r
  refine ⟨⟨h.registered.reserved, h.registered.unique, h.registered.owned, h.registered.uncalled⟩,
    h.ordered.retireLater r, h.watched.retireLater r, h.empty, hb.pending⟩

/-- A turn of the loop of `cancel_active`. -/
theorem Inv.look (h : s.Inv) (ha : (s.callers c).active = some key)
    (hv : ∀ r, s.callers c ≠ .closingVictim key r) (expired : Bool) :
    (s.look c key expired).Inv := by
  cases hl : s.pool.pool.runtimes.lookup key with
  | none =>
    have hstay (phase : MaintenancePhase) (hp : phase.active = some key) : (s.setCaller c phase).Inv := by
      apply h.advance ha hp
      · exact fun r hc => absurd hc (hv r)
      · intro k hk
        rw [MaintenancePhase.active_of_past hk] at hp
        rw [Option.some.inj hp]
        exact hl
    have hsweep : s.pool.reserveSweep key expired = s.pool := by
      simp only [PoolSystem.reserveSweep, hl]
    simp only [MaintenanceSystem.look, hl, hsweep]
    apply hstay
    split <;> rfl
  | some r =>
    have hsweep : s.pool.reserveSweep key expired =
        if key ∉ s.pool.pool.starting ∧ (s.pool.heap r).expendable = true ∨ expired = true then
          (s.pool.setRuntime r (s.pool.heap r).retireLater).evict r
        else s.pool.setRuntime r (s.pool.heap r).retireLater := by
      simp only [PoolSystem.reserveSweep, hl, PoolSystem.setRuntime_heap_self]
      rfl
    simp only [MaintenanceSystem.look, hl, hsweep, Option.all_some, Bool.or_eq_true,
      Bool.and_eq_true, decide_eq_true_eq]
    split
    · exact h.takeVictim ha hv hl
    · apply (h.retireLater r).advance ha rfl
      · exact fun r hc => absurd hc (hv r)
      · intro k hk
        cases hk

private theorem Inv.refuse (h : s.Inv) : ({ s with called := s.called + 1 }.setCaller s.called .ended).Inv := by
  have hcaller (c : Nat) : (({ s with called := s.called + 1 }.setCaller s.called .ended).callers c =
      if c = s.called then .ended else s.callers c) := by
    simp [setCaller, Function.update_apply]
  have hnew := h.registered.uncalled s.called (Nat.le_refl _)
  have hactive (c : Nat) : (({ s with called := s.called + 1 }.setCaller s.called .ended).callers c).active =
      (s.callers c).active := by
    rw [hcaller]
    split
    · rename_i hc
      rw [hc, hnew]
      rfl
    · rfl
  refine ⟨⟨?_, ?_, ?_, ?_⟩, h.ordered, h.watched, ?_, ?_⟩
  · intro c k hc
    exact h.registered.reserved c k ((hactive c).symm.trans hc)
  · intro c c' k hc hc'
    exact h.registered.unique c c' k ((hactive c).symm.trans hc) ((hactive c').symm.trans hc')
  · intro k hk
    obtain ⟨c, hc⟩ := h.registered.owned k hk
    exact ⟨c, (hactive c).trans hc⟩
  · intro c hc
    have hle : s.called + 1 ≤ c := hc
    rw [hcaller, if_neg (by omega)]
    exact h.registered.uncalled c (by omega)
  · intro c k hc
    rw [hcaller] at hc
    split at hc
    · cases hc
    · exact h.empty c k hc
  · intro t args r ht
    apply (h.pending t args r ht).mono
    rintro ⟨c, hc⟩
    refine ⟨c, ?_⟩
    rw [hcaller, if_neg]
    · exact hc
    · rintro rfl
      rw [hnew] at hc
      cases hc

private theorem Inv.barredInsert (h : s.Inv) (key : String) : (s.pool.setPool { s.pool.pool with
      maintenanceKeys := insert key s.pool.pool.maintenanceKeys }).Barred
      (h.registered.ledger _ (Finset.subset_insert key _)) where
  keys := rfl
  empty := h.barred.empty
  pending := h.barred.pending
  leases := h.barred.leases

private theorem Inv.enroll (h : s.Inv) (hkey : key ∉ s.pool.pool.maintenanceKeys)
    (hord : p.Ordered) (hw : p.Watched fun _ => True)
    (hb : p.Barred (h.registered.ledger _ (Finset.subset_insert key _)))
    (hp : phase.active = some key) (he : ∀ k, phase.past = some k → p.pool.runtimes.lookup k = none) :
    (({ s with called := s.called + 1 }.setPool p).setCaller s.called phase).Inv := by
  have hkeys : p.pool.maintenanceKeys = insert key s.pool.pool.maintenanceKeys := hb.keys
  have hcaller (c : Nat) : (({ s with called := s.called + 1 }.setPool p).setCaller s.called
      phase).callers c = if c = s.called then phase else s.callers c := by
    simp [setCaller, setPool, Function.update_apply]
  have hnew := h.registered.uncalled s.called (Nat.le_refl _)
  -- the key was not reserved, so no other call has it
  have hother {c : Nat} {k : String} (hc : (s.callers c).active = some k) : k ≠ key := by
    rintro rfl
    exact hkey (h.registered.reserved c k hc)
  refine ⟨⟨?_, ?_, ?_, ?_⟩, hord, hw, ?_, ?_⟩
  · intro c k hc
    rw [hcaller] at hc
    change k ∈ p.pool.maintenanceKeys
    rw [hkeys]
    split at hc
    · rw [hp] at hc
      exact Finset.mem_insert.mpr (.inl (Option.some.inj hc).symm)
    · exact Finset.mem_insert_of_mem (h.registered.reserved c k hc)
  · intro c c' k hc hc'
    rw [hcaller] at hc hc'
    split at hc <;> split at hc'
    · rename_i heq heq'
      rw [heq, heq']
    · rw [hp] at hc
      exact absurd (Option.some.inj hc).symm (hother hc')
    · rw [hp] at hc'
      exact absurd (Option.some.inj hc').symm (hother hc)
    · exact h.registered.unique c c' k hc hc'
  · intro k hk
    have hk : k ∈ p.pool.maintenanceKeys := hk
    rw [hkeys] at hk
    rcases Finset.mem_insert.mp hk with rfl | hk
    · exact ⟨s.called, by rw [hcaller, if_pos rfl, hp]⟩
    · obtain ⟨c, hc⟩ := h.registered.owned k hk
      refine ⟨c, ?_⟩
      rw [hcaller, if_neg]
      · exact hc
      · rintro rfl
        rw [hnew] at hc
        cases hc
  · intro c hc
    have hle : s.called + 1 ≤ c := hc
    rw [hcaller, if_neg (by omega)]
    exact h.registered.uncalled c (by omega)
  · intro c k hc
    rw [hcaller] at hc
    split at hc
    · exact he k hc
    · exact hb.empty k ⟨c, hc⟩
  · intro t args r ht
    apply (hb.pending t args r ht).mono
    rintro ⟨c, hc⟩
    refine ⟨c, ?_⟩
    rw [hcaller, if_neg]
    · exact hc
    · rintro rfl
      rw [hnew] at hc
      cases hc

private theorem look_setCaller (s : MaintenanceSystem) (c : Nat) (key : String) (expired : Bool)
    (phase : MaintenancePhase) : (s.setCaller c phase).look c key expired = s.look c key expired := by
  simp only [MaintenanceSystem.look, setCaller, setPool, Function.update_idem]
  rfl

/-- A new call of `reserve_session`. -/
theorem Inv.reserve (h : s.Inv) (key : String) (live cancelActive expired : Bool) :
    (({ s with called := s.called + 1 }).reserve s.called key live cancelActive expired).Inv := by
  simp only [MaintenanceSystem.reserve]
  split
  · exact h.refuse
  rename_i hgo
  simp only [not_or, not_and] at hgo
  obtain ⟨hkey, hbusy⟩ := hgo
  have hkey : key ∉ s.pool.pool.maintenanceKeys := hkey
  have hord : (s.pool.reserveSession key live cancelActive).Ordered :=
    PoolSystem.shrinks_ordered.reserveSession h.ordered live cancelActive
      (h.ordered.setPool rfl (Finset.Subset.refl _))
  have hw := h.watched.reserveSession key live cancelActive
  have hbusy : s.busy key live = true → ¬ cancelActive = false := hbusy
  have hunbusy : ¬(s.busy key live && !cancelActive) = true := by
    simpa using hbusy
  -- the loop is entered by a call that sleeps in it
  have hloop (hsweeping : (({ s with called := s.called + 1 }.setPool
      (s.pool.reserveSession key live cancelActive)).setCaller s.called (.sweeping key)).Inv) :
      (({ s with called := s.called + 1 }.setPool
        (s.pool.reserveSession key live cancelActive)).look s.called key expired).Inv := by
    rw [← look_setCaller _ s.called key expired (.sweeping key)]
    apply hsweeping.look
    · simp [setCaller, MaintenancePhase.active]
    · intro r hc
      simp [setCaller] at hc
  cases hl : s.pool.pool.runtimes.lookup key with
  | none =>
    have hpool : s.pool.reserveSession key live cancelActive = s.pool.setPool { s.pool.pool with
        maintenanceKeys := insert key s.pool.pool.maintenanceKeys } := by
      simp only [PoolSystem.reserveSession, if_neg hkey, hl]
      exact if_neg (by simpa only [MaintenanceSystem.busy, hl] using hunbusy)
    have hb : (s.pool.reserveSession key live cancelActive).Barred
        (h.registered.ledger _ (Finset.subset_insert key _)) := hpool ▸ h.barredInsert key
    simp only [Option.filter_none]
    split
    · apply hloop
      apply h.enroll hkey hord hw hb rfl
      intro k hk
      cases hk
    · apply h.enroll hkey hord hw hb rfl
      intro k hk
      cases hk
      rw [hpool]
      exact hl
  | some r =>
    have hpool : s.pool.reserveSession key live cancelActive = if (s.pool.heap r).evictable = true then
          ((s.pool.setPool { s.pool.pool with
            maintenanceKeys := insert key s.pool.pool.maintenanceKeys }).setRuntime r
              (s.pool.heap r).retireLater).evict r
        else (s.pool.setPool { s.pool.pool with
          maintenanceKeys := insert key s.pool.pool.maintenanceKeys }).setRuntime r
            (s.pool.heap r).retireLater := by
      simp only [PoolSystem.reserveSession, if_neg hkey, hl, PoolSystem.setRuntime_heap_self]
      exact if_neg (by simpa only [MaintenanceSystem.busy, hl] using hunbusy)
    have hmarked := (h.barredInsert key).retireLater r
    by_cases hx : (s.pool.heap r).evictable = true
    · rw [if_pos hx] at hpool
      have hspent : s.pool.Spent r := by
        apply h.barred.spent h.ordered ((h.ordered.keyed key r).mp hl).1
        exact Bool.or_eq_true_iff.mpr (.inl hx)
      have hb := hmarked.evict (r := r) (by
        intro t args ht
        rw [PoolSystem.setRuntime_heap_self]
        exact hspent t args ht)
      simp only [Option.filter_some, hx, if_true]
      apply h.enroll hkey hord hw (hpool ▸ hb) rfl
      intro k hk
      have hsame : key = k := Option.some.inj (MaintenancePhase.active_of_past hk)
      rw [hpool, ← hsame]
      exact PoolSystem.lookup_evict (.inr hl)
    · rw [if_neg hx] at hpool
      have hcancel : cancelActive = true := by
        have hb : s.busy key live = true := by simp [MaintenanceSystem.busy, hl, hx]
        simpa using hbusy hb
      rw [hcancel] at hpool hord hw hloop ⊢
      simp only [Option.filter_some, hx, if_true]
      apply hloop
      apply h.enroll hkey hord hw (hpool ▸ hmarked) rfl
      intro k hk
      cases hk

end Calls

/-- The task has a lease, and `remap` finds its runtime in the pool. -/
def remaps (s : PoolSystem) (t : Nat) : Bool :=
  match s.tasks t with
  | .leased r _ => s.pool.runtimes.lookup (s.heap r).key = some r
  | _ => false

/-- No turn brings its runtime under a key that a call of `reserve_session` has looked up for the last
time, and no peer turn ends on a runtime that an `acquire` has reserved. -/
def Careful (s : MaintenanceSystem) : MaintenanceEvent → Prop
  | .pool (.remap t sessionId) => (∃ c < s.called, (s.callers c).past = some sessionId) →
      sessionId = "" ∨ remaps s.pool t = false
  | .pool e => PoolSystem.SparesReserved s.pool e
  | .reserve .. | .sweep .. | .closed .. | .cancel _ | .release _ | .released _ => True

instance (s : MaintenanceSystem) : (e : MaintenanceEvent) → Decidable (Careful s e)
  | .pool e => by apply @PoolEvent.casesOn _ e <;> intros <;> dsimp only [Careful] <;> infer_instance
  | .reserve .. | .sweep .. | .closed .. | .cancel _ | .release _ | .released _ => .isTrue trivial

structure Exclusive (s s' : MaintenanceSystem) : Prop where
  /-- two leases that are not released are on two sessions -/
  one : ∀ c c' k, (s'.callers c).lease = some k → (s'.callers c').lease = some k → c = c'
  /-- no runtime is resident under a session that is leased -/
  empty : ∀ c k, (s'.callers c).lease = some k → s'.pool.pool.runtimes.lookup k = none
  /-- no `acquire` for a session that is leased gets a `RuntimeLease` -/
  refused : ∀ c k, (s.callers c).lease = some k → ∀ t,
    (s.pool.tasks t).acquireKey = some k → (s'.pool.tasks t).lease = none
  /-- a call that is over has not left its session reserved -/
  owned : ∀ k ∈ s'.pool.pool.maintenanceKeys, ∃ c, (s'.callers c).active = some k

section Steps

variable {s s' : MaintenanceSystem}

private theorem Careful.spares {e : PoolEvent} (hc : Careful s (.pool e)) : PoolSystem.SparesReserved s.pool e := by
  cases e with
  | remap => trivial
  | evolve => exact hc
  | acquire | admission | evicted | connected | connectFails | switched | reverted | startFails
  | closed | cancel | unbindTurn | resetTurn | release | quiesced | releaseFails
  | refreshCapacity | configure | recycleAll | reserveSession | reserveSweep | releaseMaintenance
  | retire | retired => trivial

private theorem Inv.poolStep (h : s.Inv) {e : PoolEvent} (hplain : plain e = true)
    (hc : Careful s (.pool e)) (hs : s.pool.step e = some p) :
    (s.setPool p).Inv ∧ ∀ c k, (s.callers c).lease = some k → ∀ t,
      (s.pool.tasks t).acquireKey = some k → (p.tasks t).lease = none := by
  have hb : p.Barred (h.registered.ledger _ (Finset.Subset.refl _)) := by
    apply h.barred.step h.ordered h.watched (fun _ => rfl) hplain hc.spares ?_ hs
    rintro t sessionId r mode rfl ht ⟨c, hp⟩
    have hcalled : c < s.called := by
      by_contra hge
      rw [h.registered.uncalled c (Nat.le_of_not_lt hge)] at hp
      cases hp
    refine (hc ⟨c, hcalled, hp⟩).imp id ?_
    simp [remaps, ht]
  have hkeys : p.pool.maintenanceKeys = s.pool.pool.maintenanceKeys := hb.keys
  refine ⟨⟨⟨?_, h.registered.unique, ?_, h.registered.uncalled⟩,
    h.ordered.step hc.spares.keepsReservation hs, h.watched.step (fun _ _ _ _ _ => trivial) hs,
    fun c k hp => hb.empty k ⟨c, hp⟩, hb.pending⟩, ?_⟩
  · intro c k ha
    exact hkeys ▸ h.registered.reserved c k ha
  · intro k hk
    exact h.registered.owned k (hkeys ▸ hk)
  · intro c k hl t ha
    cases hlease : (p.tasks t).lease with
    | none => rfl
    | some r => exact absurd ⟨c, hl⟩ (hb.leases t r hlease k ha)

private theorem shrinks_tasks (tasks : Nat → TaskPhase) : PoolSystem.Shrinks fun p : PoolSystem => p.tasks = tasks :=
  ⟨fun _ _ h => h, fun _ _ h => h, fun _ _ h => h⟩

private theorem look_tasks (s : MaintenanceSystem) (c : Nat) (key : String) (expired : Bool) :
    (s.look c key expired).pool.tasks = s.pool.tasks :=
  (shrinks_tasks s.pool.tasks).reserveSweep rfl key expired

private theorem reserve_tasks (s : MaintenanceSystem) (c : Nat) (key : String) (live cancelActive expired : Bool) :
    (s.reserve c key live cancelActive expired).pool.tasks = s.pool.tasks := by
  have hsection : (s.pool.reserveSession key live cancelActive).tasks = s.pool.tasks :=
    (shrinks_tasks s.pool.tasks).reserveSession rfl live cancelActive rfl
  simp only [MaintenanceSystem.reserve]
  split
  · rfl
  split
  · exact hsection
  split
  · exact (look_tasks _ c key expired).trans hsection
  · exact hsection

private theorem Inv.exclusive (h : s'.Inv) (hrefused : ∀ c k, (s.callers c).lease = some k → ∀ t,
    (s.pool.tasks t).acquireKey = some k → (s'.pool.tasks t).lease = none) : Exclusive s s' where
  one c c' k hc hc' :=
    h.registered.unique c c' k (MaintenancePhase.active_of_past (MaintenancePhase.past_of_lease hc))
      (MaintenancePhase.active_of_past (MaintenancePhase.past_of_lease hc'))
  empty c k hc := h.empty c k (MaintenancePhase.past_of_lease hc)
  refused := hrefused
  owned := h.registered.owned

private theorem Inv.exclusive_of_tasks (h : s'.Inv) (ht : s'.pool.tasks = s.pool.tasks) : Exclusive s s' := by
  apply h.exclusive
  intro c k _ t ha
  rw [ht]
  cases hl : (s.pool.tasks t).lease with
  | none => rfl
  | some r =>
    rw [acquireKey_of_lease hl] at ha
    cases ha

private theorem Inv.closed (h : s.Inv) {c : Nat} {expired : Bool} (hs : s.step (.closed c expired) = some s') :
    s'.Inv ∧ s'.pool.tasks = s.pool.tasks := by
  simp only [MaintenanceSystem.step] at hs
  split at hs
  · rename_i key r cancelActive hp
    have ha : (s.callers c).active = some key := by rw [hp]; rfl
    have hv (r' : Nat) : s.callers c ≠ .closingVictim key r' := by
      rw [hp]
      exact MaintenancePhase.noConfusion
    split at hs
    · cases cancelActive with
      | true =>
        cases hs
        exact ⟨h.look ha hv expired, look_tasks s c key expired⟩
      | false =>
        cases hs
        refine ⟨h.advance ha rfl (fun r' hc => absurd hc (hv r')) ?_, rfl⟩
        intro k hk
        cases hk
        exact h.empty c key (by rw [hp]; rfl)
    · cases hs
  · rename_i key r hp
    split at hs <;> cases hs
    rename_i hdone
    refine ⟨h.advance (by rw [hp]; rfl) rfl ?_ ?_, rfl⟩
    · intro r' hc
      rw [hp] at hc
      cases hc
      have hdone : (s.pool.heap r).closeTask = .done := of_decide_eq_true hdone
      simp [SessionRuntime.closeBegun, hdone]
    · intro k hk
      cases hk
      exact h.empty c key (by rw [hp]; rfl)
  · cases hs

private theorem Inv.cancel (h : s.Inv) {c : Nat} (hs : s.step (.cancel c) = some s') :
    s'.Inv ∧ s'.pool.tasks = s.pool.tasks := by
  simp only [MaintenanceSystem.step] at hs
  split at hs
  · rename_i key r _ hp
    split at hs <;> cases hs
    refine ⟨h.giveBack (by rw [hp]; rfl) ?_, rfl⟩
    intro r' hc
    rw [hp] at hc
    cases hc
  · rename_i key r hp
    split at hs <;> cases hs
    rename_i hbegun
    refine ⟨h.giveBack (by rw [hp]; rfl) ?_, rfl⟩
    intro r' hc
    rw [hp] at hc
    cases hc
    exact hbegun
  · rename_i key hp
    cases hs
    refine ⟨h.giveBack (by rw [hp]; rfl) ?_, rfl⟩
    intro r' hc
    rw [hp] at hc
    cases hc
  · cases hs

private theorem Inv.step (h : s.Inv) {e : MaintenanceEvent} (hc : Careful s e) (hs : s.step e = some s') :
    s'.Inv ∧ Exclusive s s' := by
  cases e with
  | pool e =>
    simp only [MaintenanceSystem.step] at hs
    split at hs
    · rename_i hplain
      obtain ⟨p, hp, rfl⟩ := Option.map_eq_some_iff.mp hs
      obtain ⟨hinv, hrefused⟩ := h.poolStep hplain hc hp
      exact ⟨hinv, hinv.exclusive hrefused⟩
    · cases hs
  | reserve key live cancelActive expired =>
    cases hs
    have hinv := h.reserve key live cancelActive expired
    exact ⟨hinv, hinv.exclusive_of_tasks (reserve_tasks _ s.called key live cancelActive expired)⟩
  | sweep c expired =>
    simp only [MaintenanceSystem.step] at hs
    split at hs <;> cases hs
    rename_i key hp
    have hinv : (s.look c key expired).Inv := by
      apply h.look
      · rw [hp]
        rfl
      · intro r
        rw [hp]
        exact MaintenancePhase.noConfusion
    exact ⟨hinv, hinv.exclusive_of_tasks (look_tasks s c key expired)⟩
  | closed c expired =>
    obtain ⟨hinv, htasks⟩ := h.closed hs
    exact ⟨hinv, hinv.exclusive_of_tasks htasks⟩
  | cancel c =>
    obtain ⟨hinv, htasks⟩ := h.cancel hs
    exact ⟨hinv, hinv.exclusive_of_tasks htasks⟩
  | release c =>
    simp only [MaintenanceSystem.step] at hs
    split at hs <;> cases hs
    rename_i key hp
    have hinv : (s.setCaller c (.releasing key)).Inv := by
      apply h.advance (by rw [hp]; rfl) rfl
      · intro r hc
        rw [hp] at hc
        cases hc
      · intro k hk
        cases hk
        exact h.empty c key (by rw [hp]; rfl)
    exact ⟨hinv, hinv.exclusive_of_tasks rfl⟩
  | released c =>
    simp only [MaintenanceSystem.step] at hs
    split at hs <;> cases hs
    rename_i key hp
    have hinv : ((s.releaseMaintenance key).setCaller c .ended).Inv := by
      apply h.giveBack (by rw [hp]; rfl)
      intro r hc
      rw [hp] at hc
      cases hc
    exact ⟨hinv, hinv.exclusive_of_tasks rfl⟩

/-- A maintenance is exclusive along every run in which no turn is remapped onto a reserved session
and no peer turn ends on a reserved runtime. -/
theorem exclusive_of_careful (capacity : Option Nat) (memory : RuntimeMemorySnapshot)
    (es : List MaintenanceEvent) (h : RunMeets step Careful (init capacity memory) es) :
    RunMeets step (fun s e => ∀ s', s.step e = some s' → Exclusive s s') (init capacity memory) es := by
  apply runMeets_of_invariant (fun s e s' hi hc hs => (Inv.step hi hc hs).1) ?_
    (inv_init capacity memory) h
  intro s e hi hc s' hs
  exact (hi.step hc hs).2

/-- A warm runtime is closed for a maintenance, and a turn of the session is refused meanwhile. -/
def maintainedRun : List MaintenanceEvent :=
  (PoolSystem.warmUp "s" 0).map .pool ++ [.reserve "s" false false false,
    .pool (.evolve 0 .closeBegins {}), .pool (.evolve 0 .closeDisconnected {}),
    .pool (.evolve 0 .receiverEnds {}), .pool (.evolve 0 .closeJoined {}), .closed 0 false,
    .pool (.acquire (PoolSystem.userArgs "s") {}), .pool (.admission 1 false 5), .release 0, .released 0]

theorem exclusive_maintainedRun : (run step (init (some 2) {}) maintainedRun).isSome ∧
      RunMeets step (fun s e => ∀ s', s.step e = some s' → Exclusive s s') (init (some 2) {})
        maintainedRun :=
  ⟨by decide, exclusive_of_careful (some 2) {} maintainedRun (by decide)⟩

/-- A pending runtime is leased, a maintenance of the session starts, and the turn learns its session. -/
def remappedRun : List MaintenanceEvent :=
  [.pool (.acquire (PoolSystem.userArgs "pending") {}), .pool (.admission 0 false 1),
    .pool (.connected 0 2), .pool (.switched 0 3), .reserve "s" false false false,
    .pool (.remap 0 "s")]

theorem remappedRun_not_exclusive :
    ¬ RunMeets step (fun s e => ∀ s', s.step e = some s' → Exclusive s s') (init (some 2) {})
      remappedRun := by
  intro h
  have hempty : RunMeets step (fun s e => ((s.step e).all fun s' =>
    (s'.callers 0).lease ≠ some "s" || (s'.pool.pool.runtimes.lookup "s").isNone) = true)
    (init (some 2) {}) remappedRun := by
    apply runMeets_of_invariant (fun _ _ _ _ _ _ => trivial) ?_ trivial h
    intro s e _ hx
    cases hs : s.step e with
    | none => rfl
    | some s' =>
      simp only [Option.all_some, Bool.or_eq_true, decide_eq_true_eq, Option.isNone_iff_eq_none]
      by_cases hl : (s'.callers 0).lease = some "s"
      · exact .inr ((hx s' hs).empty 0 "s" hl)
      · exact .inl hl
  revert hempty
  decide

end Steps

end MaintenanceSystem

end PrivaCloud.AgentRunner
