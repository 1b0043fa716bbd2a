import PrivaCloud.AgentRunner.Pool.PoolSystem
import PrivaCloud.AgentRunner.Runtime.Evolution

/-!
# The order of the pool

The map of residents agrees with the runtimes, a runtime has at most one tenant and a starting key
one holder, and a runtime suits the phase of its tenant. The changes that the sections of the pool
are made of keep this order.
-/

namespace PrivaCloud.AgentRunner

open Framework

namespace SessionRuntime

theorem evolves_setRetireTask (v : SessionRuntime) (task : RetireTask) : v.Evolves (v.setRetireTask task) :=
  evolves_of_same rfl rfl rfl rfl rfl rfl rfl rfl

theorem evolves_retireLater (v : SessionRuntime) : v.Evolves v.retireLater :=
  evolves_of_same rfl rfl rfl rfl rfl rfl rfl rfl

end SessionRuntime

variable {r t : Nat} {v : SessionRuntime}

namespace TaskPhase

/-- The task has reserved a warm runtime and is still in `start_turn`. -/
def reserving : TaskPhase → Bool
  | .switching _ _ false | .reverting _ _ false => true
  | _ => false

/-- The runtime suits the phase of task `t`. -/
def Suits (phase : TaskPhase) (t : Nat) (v : SessionRuntime) : Prop :=
  match phase with
  | .connecting args _ | .switching args _ true | .reverting args _ true =>
    v.resident = false ∧ v.key = args.key ∧ v.writeScope = args.options.writeScope
  | .switching args _ false | .reverting args _ false =>
    (v.resident = true → v.state ≠ .idle) ∧
      (v.state = .starting → v.turnWriteCapable = decide (args.mode ≠ idlePermissionMode))
  | .leased _ mode | .releasing _ mode _ =>
    (v.healthyFlag = true → v.activeQueue = some t) ∧
      (v.activeQueue = some t → v.turnWriteCapable = decide (mode ≠ idlePermissionMode))
  | _ => True

private theorem Suits.evolves {phase : TaskPhase} {v' : SessionRuntime} (h : phase.Suits t v)
    (he : v.Evolves v')
    (hi : phase.reserving = true → v'.resident = true → v'.state = .idle → v.state = .idle) :
    phase.Suits t v' := by
  have hfresh {args : AcquireArgs}
      (h : v.resident = false ∧ v.key = args.key ∧ v.writeScope = args.options.writeScope) :
      v'.resident = false ∧ v'.key = args.key ∧ v'.writeScope = args.options.writeScope := by
    rw [he.resident, he.key, he.writeScope]
    exact h
  have hreserved {args : AcquireArgs} (hr : phase.reserving = true)
      (h : (v.resident = true → v.state ≠ .idle) ∧
        (v.state = .starting → v.turnWriteCapable = decide (args.mode ≠ idlePermissionMode))) :
      (v'.resident = true → v'.state ≠ .idle) ∧
        (v'.state = .starting → v'.turnWriteCapable = decide (args.mode ≠ idlePermissionMode)) := by
    refine ⟨fun hres hs => ?_, fun hs => ?_⟩
    · exact h.1 (by rwa [← he.resident]) (hi hr hres hs)
    · obtain ⟨hs, hw⟩ := he.starting hs
      rw [hw]
      exact h.2 hs
  have hturn {mode : PermissionMode}
      (h : (v.healthyFlag = true → v.activeQueue = some t) ∧
        (v.activeQueue = some t → v.turnWriteCapable = decide (mode ≠ idlePermissionMode))) :
      (v'.healthyFlag = true → v'.activeQueue = some t) ∧
        (v'.activeQueue = some t → v'.turnWriteCapable = decide (mode ≠ idlePermissionMode)) := by
    refine ⟨fun hf => ?_, fun hq => ?_⟩
    · rw [he.queue hf]
      exact h.1 (he.flag hf)
    · obtain ⟨hq, hw⟩ := he.turn t hq
      rw [hw]
      exact h.2 hq
  cases phase with
  | connecting args r => exact hfresh h
  | switching args r fresh =>
    cases fresh with
    | true => exact hfresh h
    | false => exact hreserved rfl h
  | reverting args r fresh =>
    cases fresh with
    | true => exact hfresh h
    | false => exact hreserved rfl h
  | leased r mode => exact hturn h
  | releasing r mode args => exact hturn h
  | new | refreshing _ _ _ | evicting _ _ | connectFailing _ _ | failing _ _ | closing _
  | finishing _ _ | ended => trivial

private theorem Suits.dismiss {phase : TaskPhase} (h : phase.Suits t v) :
    phase.Suits t v.dismiss := by
  have hc : phase.Suits t v.requestClose :=
    h.evolves v.evolves_requestClose (by rw [v.requestClose_eq]; exact fun _ _ hs => hs)
  cases phase with
  | connecting args r => exact ⟨rfl, hc.2⟩
  | switching args r fresh =>
    cases fresh with
    | true => exact ⟨rfl, hc.2⟩
    | false => exact ⟨(fun hr => by cases hr), hc.2⟩
  | reverting args r fresh =>
    cases fresh with
    | true => exact ⟨rfl, hc.2⟩
    | false => exact ⟨(fun hr => by cases hr), hc.2⟩
  | leased r mode => exact hc
  | releasing r mode args => exact hc
  | new | refreshing _ _ _ | evicting _ _ | connectFailing _ _ | failing _ _ | closing _
  | finishing _ _ | ended => trivial

end TaskPhase

namespace PoolSystem

structure Ordered (s : PoolSystem) : Prop where
  keyed : ∀ k r, s.pool.runtimes.lookup k = some r ↔ (s.heap r).resident = true ∧ (s.heap r).key = k
  made : ∀ r, s.allocated ≤ r → (s.heap r).resident = false
  below : ∀ t r, (s.tasks t).owned = some r → r < s.allocated
  unspawned : ∀ t, s.spawned ≤ t → s.tasks t = .new
  suits : ∀ t r, (s.tasks t).owned = some r → (s.tasks t).Suits t (s.heap r)
  tenants : ∀ t t' r, (s.tasks t).owned = some r → (s.tasks t').owned = some r → t = t'
  held : ∀ t k, (s.tasks t).held = some k → k ∈ s.pool.starting
  holders : ∀ t t' k, (s.tasks t).held = some k → (s.tasks t').held = some k → t = t'

theorem ordered_init (capacity : Option Nat) (memory : RuntimeMemorySnapshot) :
    (init capacity memory).Ordered where
  keyed k r := by
    constructor
    · intro h
      cases h
    · rintro ⟨h, -⟩
      cases h
  made _ _ := rfl
  below _ _ h := by cases h
  unspawned _ _ := rfl
  suits _ _ h := by cases h
  tenants _ _ _ h := by cases h
  held _ _ h := by cases h
  holders _ _ _ h := by cases h

section Primitives

variable {s : PoolSystem}

private theorem Ordered.reheap (h : s.Ordered) {heap : Nat → SessionRuntime}
    (hr : ∀ r, (heap r).resident = (s.heap r).resident) (hk : ∀ r, (heap r).key = (s.heap r).key)
    (hs : ∀ t r, (s.tasks t).owned = some r → (s.tasks t).Suits t (heap r)) :
    { s with heap := heap }.Ordered where
  keyed k r := by
    rw [hr, hk]
    exact h.keyed k r
  made r hb := by
    rw [hr]
    exact h.made r hb
  below := h.below
  unspawned := h.unspawned
  suits := hs
  tenants := h.tenants
  held := h.held
  holders := h.holders

theorem Ordered.setRuntime (h : s.Ordered)
    (hr : v.resident = (s.heap r).resident) (hk : v.key = (s.heap r).key)
    (hs : ∀ t, (s.tasks t).owned = some r → (s.tasks t).Suits t v) : (s.setRuntime r v).Ordered := by
  apply h.reheap
  · intro r'
    by_cases he : r' = r
    · subst he
      simpa using hr
    · simp [he]
  · intro r'
    by_cases he : r' = r
    · subst he
      simpa using hk
    · simp [he]
  · intro t r' ho
    by_cases he : r' = r
    · subst he
      simpa using hs t ho
    · simpa [he] using h.suits t r' ho

theorem Ordered.evolves (h : s.Ordered) (he : (s.heap r).Evolves v)
    (hi : ∀ t, (s.tasks t).owned = some r → (s.tasks t).reserving = true →
      v.resident = true → v.state = .idle → (s.heap r).state = .idle) : (s.setRuntime r v).Ordered :=
  h.setRuntime he.resident he.key fun t ho => (h.suits t r ho).evolves he (hi t ho)

theorem Ordered.setPool (h : s.Ordered) {pool : SessionRuntimePool}
    (hr : pool.runtimes = s.pool.runtimes) (hs : s.pool.starting ⊆ pool.starting) :
    (s.setPool pool).Ordered where
  keyed k r := by
    simp only [PoolSystem.setPool]
    rw [hr]
    exact h.keyed k r
  made := h.made
  below := h.below
  unspawned := h.unspawned
  suits := h.suits
  tenants := h.tenants
  held t k hk := hs (h.held t k hk)
  holders := h.holders

theorem Ordered.evict (h : s.Ordered) (r : Nat) : (s.evict r).Ordered where
  keyed k r' := by
    simp only [PoolSystem.evict, PoolSystem.setPool, PoolSystem.setRuntime,
      SessionRuntimePool.remove, Dict.lookup_popValue]
    by_cases he : r' = r
    · subst he
      simp [SessionRuntime.dismiss]
    · simpa [he] using h.keyed k r'
  made r' hb := by
    by_cases he : r' = r
    · subst he
      simp [PoolSystem.evict, PoolSystem.setRuntime, SessionRuntime.dismiss]
    · simpa [PoolSystem.evict, PoolSystem.setRuntime, PoolSystem.setPool, he] using h.made r' hb
  below := h.below
  unspawned := h.unspawned
  suits t r' ho := by
    by_cases he : r' = r
    · subst he
      simpa [PoolSystem.evict, PoolSystem.setRuntime, PoolSystem.setPool] using
        (h.suits t r' ho).dismiss
    · simpa [PoolSystem.evict, PoolSystem.setRuntime, PoolSystem.setPool, he] using
        h.suits t r' ho
  tenants := h.tenants
  held := h.held
  holders := h.holders

private theorem Ordered.retireBusy (h : s.Ordered) (busy : SessionRuntime → Bool) : (s.retireBusy busy).Ordered := by
  have hsame (r : Nat) : (s.heap r).Evolves ((s.retireBusy busy).heap r) ∧
      ((s.retireBusy busy).heap r).state = (s.heap r).state := by
    simp only [PoolSystem.retireBusy]
    split
    · exact ⟨SessionRuntime.evolves_retireLater _, rfl⟩
    · exact ⟨.refl _, rfl⟩
  apply h.reheap
  · exact fun r => (hsame r).1.resident
  · exact fun r => (hsame r).1.key
  · intro t r ho
    apply (h.suits t r ho).evolves (hsame r).1
    intro _ _ hs
    rwa [(hsame r).2] at hs

theorem Ordered.retireLater (h : s.Ordered) (r : Nat) : (s.setRuntime r (s.heap r).retireLater).Ordered :=
  h.evolves (SessionRuntime.evolves_retireLater _) fun _ _ _ _ hs => hs

theorem shrinks_ordered : Shrinks Ordered :=
  ⟨fun _ r h => h.evict r, fun _ busy h => h.retireBusy busy, fun _ r h => h.retireLater r⟩

theorem Ordered.setTask (h : s.Ordered) (phase : TaskPhase) (ht : s.tasks t ≠ .new)
    (ho : ∀ r, phase.owned = some r → r < s.allocated ∧ phase.Suits t (s.heap r) ∧
      ∀ t', t' ≠ t → (s.tasks t').owned ≠ some r)
    (hk : ∀ k, phase.held = some k → k ∈ s.pool.starting ∧
      ∀ t', t' ≠ t → (s.tasks t').held ≠ some k) : (s.setTask t phase).Ordered where
  keyed := h.keyed
  made := h.made
  below t' r hr := by
    by_cases he : t' = t
    · subst he
      exact (ho r (by simpa [PoolSystem.setTask] using hr)).1
    · exact h.below t' r (by simpa [PoolSystem.setTask, he] using hr)
  unspawned t' hb := by
    have he : t' ≠ t := by
      rintro rfl
      exact ht (h.unspawned t' hb)
    simpa [PoolSystem.setTask, he] using h.unspawned t' hb
  suits t' r hr := by
    by_cases he : t' = t
    · subst he
      simp only [PoolSystem.setTask, Function.update_self] at hr ⊢
      exact (ho r hr).2.1
    · simp only [PoolSystem.setTask, Function.update_of_ne he] at hr ⊢
      exact h.suits t' r hr
  tenants t₁ t₂ r h₁ h₂ := by
    simp only [PoolSystem.setTask] at h₁ h₂
    by_cases he₁ : t₁ = t <;> by_cases he₂ : t₂ = t
    · rw [he₁, he₂]
    · rw [he₁, Function.update_self] at h₁
      rw [Function.update_of_ne he₂] at h₂
      exact absurd h₂ ((ho r h₁).2.2 t₂ he₂)
    · rw [Function.update_of_ne he₁] at h₁
      rw [he₂, Function.update_self] at h₂
      exact absurd h₁ ((ho r h₂).2.2 t₁ he₁)
    · rw [Function.update_of_ne he₁] at h₁
      rw [Function.update_of_ne he₂] at h₂
      exact h.tenants t₁ t₂ r h₁ h₂
  held t' k hh := by
    by_cases he : t' = t
    · subst he
      exact (hk k (by simpa [PoolSystem.setTask] using hh)).1
    · exact h.held t' k (by simpa [PoolSystem.setTask, he] using hh)
  holders t₁ t₂ k h₁ h₂ := by
    simp only [PoolSystem.setTask] at h₁ h₂
    by_cases he₁ : t₁ = t <;> by_cases he₂ : t₂ = t
    · rw [he₁, he₂]
    · rw [he₁, Function.update_self] at h₁
      rw [Function.update_of_ne he₂] at h₂
      exact absurd h₂ ((hk k h₁).2 t₂ he₂)
    · rw [Function.update_of_ne he₁] at h₁
      rw [he₂, Function.update_self] at h₂
      exact absurd h₁ ((hk k h₂).2 t₁ he₁)
    · rw [Function.update_of_ne he₁] at h₁
      rw [Function.update_of_ne he₂] at h₂
      exact h.holders t₁ t₂ k h₁ h₂

theorem Ordered.letGo (h : s.Ordered) (phase : TaskPhase) (ht : s.tasks t ≠ .new)
    (ho : phase.owned = none) (hk : phase.held = none ∨ phase.held = (s.tasks t).held) :
    (s.setTask t phase).Ordered := by
  apply h.setTask phase ht
  · intro r hr
    rw [ho] at hr
    cases hr
  · intro k hh
    have hh : (s.tasks t).held = some k := by
      rcases hk with hk | hk
      · rw [hk] at hh
        cases hh
      · rwa [← hk]
    exact ⟨h.held t k hh, fun t' hne hh' => hne (h.holders t' t k hh' hh)⟩

theorem Ordered.moveOn (h : s.Ordered) (phase : TaskPhase)
    (hr : (s.tasks t).owned = some r) (ho : phase.owned = some r)
    (hs : phase.Suits t (s.heap r)) (hk : phase.held = none ∨ phase.held = (s.tasks t).held) :
    (s.setTask t phase).Ordered := by
  have ht : s.tasks t ≠ .new := by
    intro hn
    rw [hn] at hr
    cases hr
  apply h.setTask phase ht
  · intro r' hr'
    rw [ho] at hr'
    cases hr'
    exact ⟨h.below t r hr, hs, fun t' hne hr' => hne (h.tenants t' t r hr' hr)⟩
  · intro k hh
    have hh : (s.tasks t).held = some k := by
      rcases hk with hk | hk
      · rw [hk] at hh
        cases hh
      · rwa [← hk]
    exact ⟨h.held t k hh, fun t' hne hh' => hne (h.holders t' t k hh' hh)⟩

theorem Ordered.spawn (h : s.Ordered) (args : AcquireArgs) (memory : RuntimeMemorySnapshot)
    (victims : List Nat) : (s.spawn (.refreshing args memory victims)).Ordered := by
  have hcase (t : Nat) : (s.spawn (.refreshing args memory victims)).tasks t = s.tasks t ∨
      (s.spawn (.refreshing args memory victims)).tasks t = .refreshing args memory victims := by
    by_cases he : t = s.spawned
    · exact .inr (by simp [PoolSystem.spawn, he])
    · exact .inl (by simp [PoolSystem.spawn, he])
  have hown {t r : Nat}
      (hr : ((s.spawn (.refreshing args memory victims)).tasks t).owned = some r) :
      (s.spawn (.refreshing args memory victims)).tasks t = s.tasks t := by
    rcases hcase t with hc | hc
    · exact hc
    · rw [hc] at hr
      cases hr
  have hheld {t : Nat} {k : String}
      (hk : ((s.spawn (.refreshing args memory victims)).tasks t).held = some k) :
      (s.spawn (.refreshing args memory victims)).tasks t = s.tasks t := by
    rcases hcase t with hc | hc
    · exact hc
    · rw [hc] at hk
      cases hk
  constructor
  · exact h.keyed
  · exact h.made
  · intro t r hr
    exact h.below t r (by rwa [hown hr] at hr)
  · intro t hb
    have hlt : s.spawned < t := hb
    simpa [PoolSystem.spawn, Nat.ne_of_gt hlt] using h.unspawned t (Nat.le_of_lt hlt)
  · intro t r hr
    have hr' := hr
    rw [hown hr] at hr' ⊢
    exact h.suits t r hr'
  · intro t t' r hr hr'
    rw [hown hr] at hr
    rw [hown hr'] at hr'
    exact h.tenants t t' r hr hr'
  · intro t k hk
    rw [hheld hk] at hk
    exact h.held t k hk
  · intro t t' k hk hk'
    rw [hheld hk] at hk
    rw [hheld hk'] at hk'
    exact h.holders t t' k hk hk'

theorem Ordered.discard (h : s.Ordered) {key : String} (hk : ∀ t, (s.tasks t).held ≠ some key) :
    (s.setPool (s.pool.discardStarting key)).Ordered where
  keyed := h.keyed
  made := h.made
  below := h.below
  unspawned := h.unspawned
  suits := h.suits
  tenants := h.tenants
  held t k hh := by
    have hne : k ≠ key := by
      rintro rfl
      exact hk t hh
    exact Finset.mem_erase.mpr ⟨hne, h.held t k hh⟩
  holders := h.holders

theorem Ordered.moveIn (h : s.Ordered) {key : String} (late : Bool)
    (hlt : r < s.allocated) (hk : (s.heap r).key = key) (hr : (s.heap r).resident = false)
    (hfree : s.pool.runtimes.lookup key = none) (hown : ∀ t, (s.tasks t).owned ≠ some r) :
    ((s.setPool (s.pool.enter key r)).setRuntime r ((s.heap r).moveIn late)).Ordered where
  keyed k r' := by
    simp only [PoolSystem.setPool, PoolSystem.setRuntime, SessionRuntimePool.enter]
    by_cases hkk : k = key
    · subst hkk
      rw [AList.lookup_insert]
      by_cases he : r' = r
      · subst he
        simp [SessionRuntime.moveIn, hk]
      · have hn : ¬((s.heap r').resident = true ∧ (s.heap r').key = k) := by
          intro hn
          rw [← h.keyed k r', hfree] at hn
          cases hn
        simpa [he, Ne.symm he] using hn
    · rw [AList.lookup_insert_ne hkk, h.keyed k r']
      by_cases he : r' = r
      · subst he
        simp [SessionRuntime.moveIn, hk, hr, Ne.symm hkk]
      · simp [he]
  made r' hb := by
    have he : r' ≠ r := by
      rintro rfl
      exact absurd hlt (Nat.not_lt.mpr hb)
    simpa [PoolSystem.setPool, PoolSystem.setRuntime, he] using h.made r' hb
  below := h.below
  unspawned := h.unspawned
  suits t r' ho := by
    have he : r' ≠ r := by
      rintro rfl
      exact hown t ho
    simpa [PoolSystem.setPool, PoolSystem.setRuntime, he] using h.suits t r' ho
  tenants := h.tenants
  held := h.held
  holders := h.holders

private theorem Ordered.allocate (h : s.Ordered) (hv : v.resident = false) :
    (s.allocate v).Ordered := by
  have hold {r : Nat} (hne : r ≠ s.allocated) : (s.allocate v).heap r = s.heap r := by
    simp [PoolSystem.allocate, hne]
  have hnew : (s.allocate v).heap s.allocated = v := by
    simp [PoolSystem.allocate]
  constructor
  · intro k r
    by_cases he : r = s.allocated
    · have hn := h.made s.allocated (Nat.le_refl _)
      have hk : s.pool.runtimes.lookup k ≠ some s.allocated := by
        rw [Ne, h.keyed k s.allocated, hn]
        simp
      subst he
      rw [hnew, hv]
      simpa [PoolSystem.allocate] using hk
    · rw [hold he]
      exact h.keyed k r
  · intro r hb
    have hlt : s.allocated < r := hb
    rw [hold (Nat.ne_of_gt hlt)]
    exact h.made r (Nat.le_of_lt hlt)
  · intro t' r hr
    exact Nat.lt_succ_of_lt (h.below t' r hr)
  · exact h.unspawned
  · intro t' r hr
    rw [hold (Nat.ne_of_lt (h.below t' r hr))]
    exact h.suits t' r hr
  · exact h.tenants
  · exact h.held
  · exact h.holders

theorem Ordered.startRuntime (h : s.Ordered) {args : AcquireArgs} (now : Nat)
    (ht : s.tasks t ≠ .new) (hk : args.key ∈ s.pool.starting)
    (hfree : ∀ t', t' ≠ t → (s.tasks t').held ≠ some args.key) :
    (s.startRuntime t args now).Ordered := by
  have hmade : (s.allocate (.create args.key args.options now)).Ordered := h.allocate rfl
  apply hmade.setTask _ ht
  · intro r hr
    cases hr
    refine ⟨Nat.lt_succ_self _, ?_, ?_⟩
    · rw [show (s.allocate (.create args.key args.options now)).heap s.allocated =
        .create args.key args.options now by simp [PoolSystem.allocate]]
      exact ⟨rfl, rfl, rfl⟩
    · intro t' _ hr'
      exact absurd (h.below t' s.allocated hr') (Nat.lt_irrefl _)
  · intro k hk'
    cases hk'
    exact ⟨hk, hfree⟩

theorem Ordered.rekey (h : s.Ordered) {sessionId : String} (hr : (s.heap r).resident = true)
    (hfree : ∀ r', s.pool.runtimes.lookup sessionId = some r' → r' = r)
    (hs : ∀ t, (s.tasks t).owned = some r → (s.tasks t).Suits t ((s.heap r).rename sessionId)) :
    ((s.setPool (s.pool.rekey (s.heap r).key sessionId r)).setRuntime r
      ((s.heap r).rename sessionId)).Ordered where
  keyed k r' := by
    simp only [PoolSystem.setPool, PoolSystem.setRuntime, SessionRuntimePool.rekey]
    by_cases hk : k = sessionId
    · subst hk
      rw [AList.lookup_insert]
      by_cases he : r' = r
      · subst he
        simp [SessionRuntime.rename, hr]
      · have hn : ¬((s.heap r').resident = true ∧ (s.heap r').key = k) := by
          intro hn
          exact he (hfree r' ((h.keyed k r').mpr hn))
        simpa [he, Ne.symm he] using hn
    · rw [AList.lookup_insert_ne hk]
      by_cases hold : k = (s.heap r).key
      · subst hold
        rw [AList.lookup_erase]
        by_cases he : r' = r
        · subst he
          simp [SessionRuntime.rename, Ne.symm hk]
        · have hn : ¬((s.heap r').resident = true ∧ (s.heap r').key = (s.heap r).key) := by
            intro hn
            have h₁ := (h.keyed _ r').mpr hn
            have h₂ := (h.keyed _ r).mpr ⟨hr, rfl⟩
            rw [h₁] at h₂
            exact he (Option.some.inj h₂)
          simpa [he] using hn
      · rw [AList.lookup_erase_ne hold, h.keyed k r']
        by_cases he : r' = r
        · subst he
          simp [SessionRuntime.rename, Ne.symm hk, Ne.symm hold]
        · simp [he]
  made r' hb := by
    have he : r' ≠ r := by
      rintro rfl
      simp [h.made r' hb] at hr
    simpa [PoolSystem.setPool, PoolSystem.setRuntime, he] using h.made r' hb
  below := h.below
  unspawned := h.unspawned
  suits t r' ho := by
    by_cases he : r' = r
    · subst he
      simpa [PoolSystem.setPool, PoolSystem.setRuntime] using hs t ho
    · simpa [PoolSystem.setPool, PoolSystem.setRuntime, he] using h.suits t r' ho
  tenants := h.tenants
  held := h.held
  holders := h.holders

end Primitives

end PoolSystem

end PrivaCloud.AgentRunner
