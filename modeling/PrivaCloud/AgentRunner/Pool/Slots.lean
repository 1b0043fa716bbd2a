import PrivaCloud.AgentRunner.Pool.WriteScopes

/-!
# Slots

While its limits stay as they are, the pool has no more runtimes and no more active turns than they
allow, and a starting key is in the tables only as long as somebody is there to take it out.
-/

namespace PrivaCloud.AgentRunner

open Framework

namespace SessionRuntimePool

variable {p : SessionRuntimePool} {heap : Nat → SessionRuntime}

def activeResidents (p : SessionRuntimePool) (heap : Nat → SessionRuntime) : Finset Nat :=
  p.residents.filter fun r => (heap r).countsActive

private theorem mem_activeResidents {r : Nat} :
    r ∈ p.activeResidents heap ↔ r ∈ p.residents ∧ (heap r).countsActive = true :=
  Finset.mem_filter

private theorem activeCount_none (p : SessionRuntimePool) (heap : Nat → SessionRuntime) :
    p.activeCount heap none = p.starting.card + (p.activeResidents heap).card := by
  simp [activeCount, activeResidents]

private theorem activeCount_some (p : SessionRuntimePool) (heap : Nat → SessionRuntime) (r : Nat) :
    p.activeCount heap (some r) = p.starting.card + ((p.activeResidents heap).erase r).card := by
  have hset : p.residents.filter (fun r' => some r' ≠ some r ∧ (heap r').countsActive) =
      (p.activeResidents heap).erase r := by
    ext r'
    simp only [Finset.mem_filter, Finset.mem_erase, mem_activeResidents, ne_eq, Option.some.injEq]
    tauto
  rw [activeCount, hset]

theorem mem_residents {r : Nat} : r ∈ p.residents ↔ ∃ k, p.runtimes.lookup k = some r := by
  rw [residents, List.mem_toFinset, Dict.mem_values]

end SessionRuntimePool

variable {v : SessionRuntime} {now : Nat} {memory : RuntimeMemorySnapshot}

namespace PoolSystem

structure Slotted (s : PoolSystem) : Prop where
  room : s.pool.size + s.pool.starting.card ≤ s.pool.capacity
  active : s.pool.activeCount s.heap none ≤ s.pool.activeCapacity
  manned : ∀ k ∈ s.pool.starting, ∃ t, (s.tasks t).held = some k
  tasks : ∀ k ∈ s.pool.startingTasks, k ∈ s.pool.starting
  scopes : ∀ k ∈ s.pool.startingWriteScopes, k ∈ s.pool.starting

private theorem slotted_init (capacity : Option Nat) (memory : RuntimeMemorySnapshot) :
    (init capacity memory).Slotted where
  room := Nat.zero_le _
  active := Nat.zero_le _
  manned _ h := by cases h
  tasks _ h := by cases h
  scopes _ h := by cases h

section Primitives

variable {s : PoolSystem} {t r : Nat}

private theorem Ordered.mem_residents (hord : s.Ordered) : r ∈ s.pool.residents ↔ (s.heap r).resident = true := by
  rw [SessionRuntimePool.mem_residents]
  constructor
  · rintro ⟨k, hk⟩
    exact ((hord.keyed k r).mp hk).1
  · intro hr
    exact ⟨_, (hord.keyed _ r).mpr ⟨hr, rfl⟩⟩

private theorem Slotted.reheap (h : s.Slotted) {heap : Nat → SessionRuntime}
    (hc : s.pool.activeResidents heap ⊆ s.pool.activeResidents s.heap) :
    { s with heap := heap }.Slotted where
  room := h.room
  active := by
    have := h.active
    have := Finset.card_le_card hc
    simp only [SessionRuntimePool.activeCount_none] at *
    omega
  manned := h.manned
  tasks := h.tasks
  scopes := h.scopes

private theorem Slotted.setRuntime (h : s.Slotted)
    (hc : v.countsActive = true → r ∈ s.pool.residents → (s.heap r).countsActive = true) :
    (s.setRuntime r v).Slotted := by
  apply h.reheap
  intro r' hr'
  rw [SessionRuntimePool.mem_activeResidents] at hr' ⊢
  grind

private theorem Slotted.activate (h : s.Slotted) (v : SessionRuntime)
    (hc : s.pool.activeCount s.heap (some r) < s.pool.activeCapacity) :
    (s.setRuntime r v).Slotted where
  room := h.room
  active := by
    have hsub : (s.setRuntime r v).pool.activeResidents (s.setRuntime r v).heap ⊆
        insert r ((s.pool.activeResidents s.heap).erase r) := by
      intro r' hr'
      by_cases he : r' = r
      · subst he
        exact Finset.mem_insert_self _ _
      · rw [SessionRuntimePool.mem_activeResidents] at hr'
        simp only [PoolSystem.setRuntime, Function.update_of_ne he] at hr'
        apply Finset.mem_insert_of_mem
        exact Finset.mem_erase.mpr ⟨he, SessionRuntimePool.mem_activeResidents.mpr hr'⟩
    have hcard := Finset.card_le_card hsub
    have hins := Finset.card_insert_le r ((s.pool.activeResidents s.heap).erase r)
    rw [SessionRuntimePool.activeCount_some] at hc
    rw [SessionRuntimePool.activeCount_none]
    change s.pool.starting.card + _ ≤ s.pool.activeCapacity
    omega
  manned := h.manned
  tasks := h.tasks
  scopes := h.scopes

private theorem Slotted.setPool (h : s.Slotted) {pool : SessionRuntimePool}
    (hr : pool.runtimes = s.pool.runtimes) (hs : pool.starting = s.pool.starting)
    (ht : pool.startingTasks = s.pool.startingTasks)
    (hw : pool.startingWriteScopes = s.pool.startingWriteScopes)
    (hc : pool.capacity = s.pool.capacity) (ha : pool.activeCapacity = s.pool.activeCapacity) :
    (s.setPool pool).Slotted where
  room := by
    have := h.room
    simp only [PoolSystem.setPool, SessionRuntimePool.size] at this ⊢
    rwa [hr, hs, hc]
  active := by
    have := h.active
    simp only [PoolSystem.setPool, SessionRuntimePool.activeCount, SessionRuntimePool.residents] at this ⊢
    rwa [hr, hs, ha]
  manned k hk := h.manned k (hs ▸ hk)
  tasks k hk := by
    simp only [PoolSystem.setPool] at hk ⊢
    rw [hs]
    rw [ht] at hk
    exact h.tasks k hk
  scopes k hk := by
    simp only [PoolSystem.setPool] at hk ⊢
    rw [hs]
    rw [hw] at hk
    exact h.scopes k hk

private theorem Slotted.setTask (h : s.Slotted) (phase : TaskPhase)
    (hk : ∀ k ∈ s.pool.starting, (s.tasks t).held = some k → phase.held = some k) :
    (s.setTask t phase).Slotted where
  room := h.room
  active := h.active
  manned k hm := by
    obtain ⟨t', ht'⟩ := h.manned k hm
    by_cases he : t' = t
    · subst he
      exact ⟨t', by simpa [PoolSystem.setTask] using hk k hm ht'⟩
    · exact ⟨t', by simpa [PoolSystem.setTask, he] using ht'⟩
  tasks := h.tasks
  scopes := h.scopes

private theorem Slotted.pass (h : s.Slotted) (phase : TaskPhase)
    (hk : (s.tasks t).held = none ∨ phase.held = (s.tasks t).held) :
    (s.setTask t phase).Slotted := by
  apply h.setTask
  intro k _ ht
  rcases hk with hk | hk
  · rw [hk] at ht
    cases ht
  · rw [hk]
    exact ht

private theorem Slotted.spawn (h : s.Slotted) (hord : s.Ordered) (phase : TaskPhase) : (s.spawn phase).Slotted := by
  have hn := hord.unspawned s.spawned (Nat.le_refl _)
  obtain ⟨h₁, h₂, h₃, h₄, h₅⟩ := h.pass (t := s.spawned) phase (.inl (by rw [hn]; rfl))
  exact ⟨h₁, h₂, h₃, h₄, h₅⟩

private theorem activeResidents_evict (s : PoolSystem) (r : Nat) :
    (s.evict r).pool.activeResidents (s.evict r).heap ⊆ s.pool.activeResidents s.heap := by
  intro r' hr'
  rw [SessionRuntimePool.mem_activeResidents, SessionRuntimePool.mem_residents] at hr' ⊢
  obtain ⟨⟨k, hk⟩, hactive⟩ := hr'
  obtain ⟨hk, hne⟩ := Dict.lookup_popValue.mp hk
  refine ⟨⟨k, hk⟩, ?_⟩
  simpa [PoolSystem.evict, PoolSystem.setRuntime, PoolSystem.setPool, hne] using hactive

private theorem Slotted.evict (h : s.Slotted) (r : Nat) : (s.evict r).Slotted where
  room := by
    have hroom := h.room
    have hle := Dict.length_popValue_le s.pool.runtimes r
    change (s.pool.runtimes.popValue r).entries.length + s.pool.starting.card ≤ s.pool.capacity
    simp only [SessionRuntimePool.size] at hroom
    omega
  active := by
    have hactive := h.active
    have hcard := Finset.card_le_card (activeResidents_evict s r)
    rw [SessionRuntimePool.activeCount_none] at hactive ⊢
    change s.pool.starting.card + _ ≤ s.pool.activeCapacity
    omega
  manned := h.manned
  tasks := h.tasks
  scopes := h.scopes

private theorem Slotted.retireBusy (h : s.Slotted) (busy : SessionRuntime → Bool) : (s.retireBusy busy).Slotted := by
  apply h.reheap
  intro r hr
  rw [SessionRuntimePool.mem_activeResidents] at hr ⊢
  refine ⟨hr.1, ?_⟩
  have hactive := hr.2
  split at hactive
  · exact hactive
  · exact hactive

private theorem shrinks_slotted : Shrinks Slotted where
  evict _ r h := h.evict r
  retireBusy _ busy h := h.retireBusy busy
  retireLater _ _ h := h.setRuntime fun hc _ => hc

private theorem Slotted.allocate (h : s.Slotted) (hord : s.Ordered) (v : SessionRuntime) : (s.allocate v).Slotted := by
  have hout : s.allocated ∉ s.pool.residents := by
    rw [hord.mem_residents, hord.made _ (Nat.le_refl _)]
    exact Bool.false_ne_true
  obtain ⟨h₁, h₂, h₃, h₄, h₅⟩ := h.setRuntime (r := s.allocated) (v := v)
    fun _ hr => absurd hr hout
  exact ⟨h₁, h₂, h₃, h₄, h₅⟩

private theorem Slotted.addStarting (h : s.Slotted) {args : AcquireArgs} (phase : TaskPhase)
    (hk : args.key ∉ s.pool.starting) (hp : phase.held = some args.key)
    (ht : (s.tasks t).held = none)
    (hroom : s.pool.size + s.pool.starting.card < s.pool.capacity)
    (hactive : s.pool.activeCount s.heap none < s.pool.activeCapacity) :
    ((s.setPool (s.pool.addStarting args.key t args.options)).setTask t phase).Slotted where
  room := by
    change s.pool.size + (insert args.key s.pool.starting).card ≤ s.pool.capacity
    rw [Finset.card_insert_of_notMem hk]
    omega
  active := by
    rw [SessionRuntimePool.activeCount_none] at hactive ⊢
    change (insert args.key s.pool.starting).card + (s.pool.activeResidents s.heap).card ≤
      s.pool.activeCapacity
    rw [Finset.card_insert_of_notMem hk]
    omega
  manned k hm := by
    rcases Finset.mem_insert.mp hm with rfl | hm
    · exact ⟨t, by simpa [PoolSystem.setTask] using hp⟩
    · obtain ⟨t', ht'⟩ := h.manned k hm
      have he : t' ≠ t := by
        rintro rfl
        rw [ht] at ht'
        cases ht'
      exact ⟨t', by simpa [PoolSystem.setTask, PoolSystem.setPool, he] using ht'⟩
  tasks k hm := by
    rcases (AList.mem_insert _).mp hm with rfl | hm
    · exact Finset.mem_insert_self _ _
    · exact Finset.mem_insert_of_mem (h.tasks k hm)
  scopes k hm := by
    simp only [PoolSystem.setTask, PoolSystem.setPool, SessionRuntimePool.addStarting] at hm ⊢
    split at hm
    · rcases (AList.mem_insert _).mp hm with rfl | hm
      · exact Finset.mem_insert_self _ _
      · exact Finset.mem_insert_of_mem (h.scopes k hm)
    · exact Finset.mem_insert_of_mem (h.scopes k hm)

variable {key : String}

private theorem Slotted.manned_erase (h : s.Slotted) (phase : TaskPhase)
    (ht : (s.tasks t).held = some key) (k : String) (hk : k ∈ s.pool.starting.erase key) :
    ∃ t', ((s.setTask t phase).tasks t').held = some k := by
  obtain ⟨hne, hm⟩ := Finset.mem_erase.mp hk
  obtain ⟨t', ht'⟩ := h.manned k hm
  have he : t' ≠ t := by
    rintro rfl
    rw [ht] at ht'
    exact hne (Option.some.inj ht').symm
  exact ⟨t', by simpa [PoolSystem.setTask, he] using ht'⟩

private theorem Slotted.tables_erase (h : s.Slotted) (key : String) :
    (∀ k ∈ s.pool.startingTasks.erase key, k ∈ s.pool.starting.erase key) ∧
      ∀ k ∈ s.pool.startingWriteScopes.erase key, k ∈ s.pool.starting.erase key := by
  constructor
  · intro k hk
    obtain ⟨hne, hk⟩ := AList.mem_erase.mp hk
    exact Finset.mem_erase.mpr ⟨hne, h.tasks k hk⟩
  · intro k hk
    obtain ⟨hne, hk⟩ := AList.mem_erase.mp hk
    exact Finset.mem_erase.mpr ⟨hne, h.scopes k hk⟩

private theorem Slotted.discard (h : s.Slotted) (phase : TaskPhase) (ht : (s.tasks t).held = some key) :
    ((s.setPool (s.pool.discardStarting key)).setTask t phase).Slotted where
  room := by
    have hroom := h.room
    have hcard := Finset.card_erase_le (s := s.pool.starting) (a := key)
    change s.pool.size + (s.pool.starting.erase key).card ≤ s.pool.capacity
    omega
  active := by
    have hactive := h.active
    have hcard := Finset.card_erase_le (s := s.pool.starting) (a := key)
    rw [SessionRuntimePool.activeCount_none] at hactive ⊢
    change (s.pool.starting.erase key).card + (s.pool.activeResidents s.heap).card ≤
      s.pool.activeCapacity
    omega
  manned := h.manned_erase phase ht
  tasks := (h.tables_erase key).1
  scopes := (h.tables_erase key).2

private theorem Slotted.moveIn (h : s.Slotted) (late : Bool) (phase : TaskPhase)
    (ht : (s.tasks t).held = some key) (hk : key ∈ s.pool.starting)
    (hfree : s.pool.runtimes.lookup key = none) :
    (((s.setPool ((s.pool.discardStarting key).enter key r)).setRuntime r
      ((s.heap r).moveIn late)).setTask t phase).Slotted where
  room := by
    have hroom := h.room
    have hcard := Finset.card_erase_add_one hk
    have hsize := Dict.length_insert_of_lookup r hfree
    change (s.pool.runtimes.insert key r).entries.length + (s.pool.starting.erase key).card ≤
      s.pool.capacity
    simp only [SessionRuntimePool.size] at hroom
    omega
  active := by
    have hactive := h.active
    have hcard := Finset.card_erase_add_one hk
    have hsub : ((s.pool.discardStarting key).enter key r).activeResidents
        (Function.update s.heap r ((s.heap r).moveIn late)) ⊆
        insert r (s.pool.activeResidents s.heap) := by
      intro r' hr'
      by_cases he : r' = r
      · subst he
        exact Finset.mem_insert_self _ _
      · rw [SessionRuntimePool.mem_activeResidents, SessionRuntimePool.mem_residents,
          Function.update_of_ne he] at hr'
        obtain ⟨⟨k, hlookup⟩, hc⟩ := hr'
        apply Finset.mem_insert_of_mem
        rw [SessionRuntimePool.mem_activeResidents, SessionRuntimePool.mem_residents]
        refine ⟨⟨k, ?_⟩, hc⟩
        by_cases hkk : k = key
        · subst hkk
          rw [SessionRuntimePool.enter, AList.lookup_insert] at hlookup
          exact absurd (Option.some.inj hlookup).symm he
        · rwa [SessionRuntimePool.enter, AList.lookup_insert_ne hkk] at hlookup
    have hle := Finset.card_le_card hsub
    have hins := Finset.card_insert_le r (s.pool.activeResidents s.heap)
    rw [SessionRuntimePool.activeCount_none] at hactive ⊢
    change (s.pool.starting.erase key).card + (((s.pool.discardStarting key).enter key
      r).activeResidents (Function.update s.heap r ((s.heap r).moveIn late))).card ≤
        s.pool.activeCapacity
    omega
  manned := h.manned_erase phase ht
  tasks := (h.tables_erase key).1
  scopes := (h.tables_erase key).2

private theorem Slotted.rekey (h : s.Slotted) {old sessionId : String}
    (hold : s.pool.runtimes.lookup old = some r)
    (hfree : sessionId ≠ old → s.pool.runtimes.lookup sessionId = none)
    (hc : v.countsActive = (s.heap r).countsActive) :
    ((s.setPool (s.pool.rekey old sessionId r)).setRuntime r v).Slotted where
  room := by
    have hroom := h.room
    have herase := Dict.length_erase_of_lookup hold
    have hnone : (s.pool.runtimes.erase old).lookup sessionId = none := by
      by_cases he : sessionId = old
      · rw [he, AList.lookup_erase]
      · rw [AList.lookup_erase_ne he]
        exact hfree he
    have hsize := Dict.length_insert_of_lookup r hnone
    change ((s.pool.runtimes.erase old).insert sessionId r).entries.length +
      s.pool.starting.card ≤ s.pool.capacity
    simp only [SessionRuntimePool.size] at hroom
    omega
  active := by
    have hactive := h.active
    have hsub : (s.pool.rekey old sessionId r).activeResidents (Function.update s.heap r v) ⊆
        s.pool.activeResidents s.heap := by
      intro r' hr'
      rw [SessionRuntimePool.mem_activeResidents, SessionRuntimePool.mem_residents] at hr' ⊢
      obtain ⟨⟨k, hk⟩, hactive⟩ := hr'
      by_cases he : r' = r
      · subst he
        rw [Function.update_self, hc] at hactive
        exact ⟨⟨old, hold⟩, hactive⟩
      · rw [Function.update_of_ne he] at hactive
        refine ⟨⟨k, ?_⟩, hactive⟩
        by_cases hkk : k = sessionId
        · subst hkk
          rw [SessionRuntimePool.rekey, AList.lookup_insert] at hk
          exact absurd (Option.some.inj hk).symm he
        · rw [SessionRuntimePool.rekey, AList.lookup_insert_ne hkk] at hk
          by_cases hko : k = old
          · rw [hko, AList.lookup_erase] at hk
            cases hk
          · rwa [AList.lookup_erase_ne hko] at hk
    have hle := Finset.card_le_card hsub
    rw [SessionRuntimePool.activeCount_none] at hactive ⊢
    change s.pool.starting.card + ((s.pool.rekey old sessionId r).activeResidents
      (Function.update s.heap r v)).card ≤ s.pool.activeCapacity
    omega
  manned := h.manned
  tasks := h.tasks
  scopes := h.scopes

end Primitives

section Turns

variable {s : PoolSystem} {t r : Nat} {args : AcquireArgs}

variable {fresh : Bool}

private theorem Slotted.failStart (h : s.Slotted)
    (hk : (s.tasks t).held = if fresh = true then some args.key else none) :
    (s.failStart t args r fresh).Slotted := by
  cases fresh with
  | true =>
    have hc : (s.setRuntime r (s.heap r).requestClose).Slotted := by
      apply h.setRuntime
      rw [SessionRuntime.requestClose_eq]
      exact fun hc _ => hc
    exact hc.pass _ (.inr hk.symm)
  | false => exact (h.evict r).pass _ (.inl hk)

private theorem Slotted.register (h : s.Slotted) (hord : s.Ordered)
    (hk : (s.tasks t).held = some args.key) : (s.register t args r).Slotted := by
  simp only [PoolSystem.register]
  split
  · have hc : (s.setRuntime r (s.heap r).requestClose).Slotted := by
      apply h.setRuntime
      rw [SessionRuntime.requestClose_eq]
      exact fun hc _ => hc
    exact hc.discard (.closing r) hk
  · rename_i hn
    simp only [not_or, Bool.not_eq_true, Option.isSome_eq_false_iff, Option.isNone_iff_eq_none]
      at hn
    exact h.moveIn _ _ hk (hord.held t args.key hk) hn.2

private theorem Slotted.takeSwitched (h : s.Slotted) (hord : s.Ordered)
    (ht : s.tasks t = .switching args r fresh)
    (hstart : fresh = false → (s.heap r).resident = true → (s.heap r).state = .starting) :
    (s.takeTurn t args r fresh now).Slotted := by
  have hr : (s.tasks t).owned = some r := by rw [ht]; rfl
  have hs := hord.suits t r hr
  rw [ht] at hs
  have hheld : (s.tasks t).held = if fresh = true then some args.key else none := by
    rw [ht]
    cases fresh <;> rfl
  have hown : (s.setRuntime r ((s.heap r).ownTurn t args.binding args.mode now)).Slotted := by
    apply h.setRuntime
    intro _ hin
    have hres := hord.mem_residents.mp hin
    cases fresh with
    | true =>
      rw [hs.1] at hres
      cases hres
    | false => simp [SessionRuntime.countsActive, hstart rfl hres]
  simp only [PoolSystem.takeTurn]
  split
  · exact hown.failStart hheld
  split
  · rename_i hfresh
    subst hfresh
    refine hown.register ?_ hheld
    refine hord.setRuntime ?_ ?_ ?_
    · rfl
    · rfl
    · intro t' hr'
      obtain rfl := hord.tenants t' t r hr' hr
      rw [ht]
      exact hs
  · rename_i hwarm
    rw [if_neg hwarm] at hheld
    exact hown.pass _ (.inl hheld)

private theorem Slotted.beginTurn (h : (s.setTask t (.switching args r fresh)).Slotted)
    (hord : (s.setTask t (.switching args r fresh)).Ordered)
    (hstart : fresh = false → (s.heap r).resident = true → (s.heap r).state = .starting) :
    (s.beginTurn t args r fresh now).Slotted :=
  beginTurn_cases (P := PoolSystem.Slotted) h fun ht => h.takeSwitched hord ht hstart

private theorem activeCount_some_le (p : SessionRuntimePool) (heap : Nat → SessionRuntime) (r : Nat) :
    p.activeCount heap (some r) ≤ p.activeCount heap none := by
  have := Finset.card_erase_le (s := p.activeResidents heap) (a := r)
  rw [SessionRuntimePool.activeCount_some, SessionRuntimePool.activeCount_none]
  omega

private theorem Slotted.enter (h : s.Slotted) (hord : s.Ordered)
    {deferred : Bool} (ht : s.tasks t ≠ .new) (hk : (s.tasks t).held = none) :
    (s.enter t args memory deferred now).Slotted := by
  unfold PoolSystem.enter
  split
  · exact h.pass _ (.inl hk)
  · rename_i r hadm
    obtain ⟨hclear, -⟩ := SessionRuntimePool.admission_backed hadm nofun
    have hreserved (writes : Bool) : (s.setRuntime r ((s.heap r).reserve writes)).Slotted :=
      h.activate _ (Nat.lt_of_le_of_lt (activeCount_some_le _ _ r) hclear.active)
    simp only
    split
    · exact (hreserved _).failStart hk
    · refine Slotted.beginTurn ?_ (hord.reserveTurn hadm ht) ?_
      · exact (hreserved _).pass _ (.inl hk)
      · intro _ _
        rw [setRuntime_heap_self]
        rfl
  · rename_i victim hadm
    obtain ⟨hclear, hv⟩ := SessionRuntimePool.admission_backed hadm nofun
    have hlookup : ∃ k, s.pool.runtimes.lookup k = some victim := by
      rcases hv with hv | ⟨-, -, hv⟩
      · exact ⟨_, hv⟩
      · exact (SessionRuntimePool.mem_expendables hv).1
    obtain ⟨k, hlookup⟩ := hlookup
    have hroom := h.room
    have hsize := Dict.length_popValue_lt hlookup
    have hactive := hclear.active
    have hcard := Finset.card_le_card (activeResidents_evict s victim)
    refine (h.evict victim).addStarting _ hclear.starting rfl hk ?_ ?_
    · change (s.pool.runtimes.popValue victim).entries.length + s.pool.starting.card <
        s.pool.capacity
      simp only [SessionRuntimePool.size] at hroom
      omega
    · rw [SessionRuntimePool.activeCount_none] at hactive ⊢
      change s.pool.starting.card + _ < s.pool.activeCapacity
      omega
  · rename_i hadm
    obtain ⟨hclear, -, hroom⟩ := SessionRuntimePool.admission_backed hadm nofun
    have hmade := h.allocate hord (.create args.key args.options now)
    refine hmade.addStarting (.connecting args s.allocated) hclear.starting rfl hk hroom ?_
    have hactive := hclear.active
    have hsame : s.pool.activeResidents (s.allocate (.create args.key args.options now)).heap ⊆
        s.pool.activeResidents s.heap := by
      intro r hr
      rw [SessionRuntimePool.mem_activeResidents] at hr ⊢
      have he : r ≠ s.allocated := by
        rintro rfl
        rw [hord.mem_residents, hord.made _ (Nat.le_refl _)] at hr
        cases hr.1
      simpa [PoolSystem.allocate, he] using hr
    have hcard := Finset.card_le_card hsame
    rw [SessionRuntimePool.activeCount_none] at hactive ⊢
    change s.pool.starting.card + (s.pool.activeResidents
      (s.allocate (.create args.key args.options now)).heap).card < s.pool.activeCapacity
    omega

private theorem Slotted.remap (h : s.Slotted) (hord : s.Ordered) (sessionId : String) :
    (s.remap r sessionId).Slotted := by
  unfold PoolSystem.remap
  split
  · exact h
  rename_i hgone
  simp only [not_or, Decidable.not_not] at hgone
  split
  · exact h.setRuntime fun hc _ => hc
  · rename_i hfree
    refine h.rekey hgone.2 ?_ rfl
    intro hne
    cases hl : s.pool.runtimes.lookup sessionId with
    | none => rfl
    | some r' =>
      obtain rfl : r' = r := by simpa [hl] using hfree
      exact absurd ((hord.keyed _ r').mp hl).2.symm hne

end Turns

end PoolSystem

namespace SessionRuntime

private theorem countsActive_observeUnread {unread : List (PeerEnv × Frame)}
    (hn : ∀ u ∈ unread, u.1.admits = false)
    (hc : (v.observeUnread unread).1.countsActive = true) : v.countsActive = true := by
  induction unread generalizing v with
  | nil => exact hc
  | cons head rest ih =>
    obtain ⟨env, f⟩ := head
    have hnone : env.admits = false := hn _ List.mem_cons_self
    have hc := ih (fun u hu => hn u (List.mem_cons_of_mem _ hu)) hc
    have hclose (w : SessionRuntime) : (w.closePeer env.now).countsActive = false := by
      cases hf : w.healthyFlag <;> simp [countsActive, closePeer, hf]
    obtain h | h | ⟨record, hadmits, -⟩ | ⟨-, h | ⟨record, h⟩⟩ := observe_cases v env f
    · rwa [h] at hc
    · rw [h] at hc
      cases hc
    · rw [hnone] at hadmits
      cases hadmits
    · rw [h, hclose] at hc
      cases hc
    · rw [h, hclose] at hc
      cases hc

private theorem countsActive_finishTurn {unread : List (PeerEnv × Frame)}
    {tainted keepWarm : Bool} (hn : ∀ u ∈ unread, u.1.admits = false)
    (hc : (v.finishTurn unread tainted keepWarm now).countsActive = true) :
    v.countsActive = true := by
  have hobs : (v.releaseQueue.observeUnread unread).1.countsActive = true := by
    simp only [finishTurn, settle, countsActive] at hc ⊢
    split at hc
    · cases hc
    · split at hc
      · cases hc
      · exact hc
  have hreleased : v.releaseQueue.countsActive = true := countsActive_observeUnread hn hobs
  exact hreleased

end SessionRuntime

namespace PoolSystem

section Leases

variable {s : PoolSystem} {t r : Nat}

/-- The unread frames of a turn make its runtime active again only with the room for it. -/
theorem Slotted.finishTurn (h : s.Slotted) (unread : List UnreadFrame)
    (hc : v.countsActive = (s.heap r).countsActive) (tainted keepWarm : Bool) (now : Nat) :
    (s.setRuntime r (v.finishTurn (s.peerEnvs r unread) tainted keepWarm now)).Slotted := by
  by_cases hroom : s.pool.activeCount s.heap (some r) < s.pool.activeCapacity
  · exact h.activate _ hroom
  · apply h.setRuntime
    intro hactive _
    rw [← hc]
    apply SessionRuntime.countsActive_finishTurn _ hactive
    intro u hu
    obtain ⟨f, -, rfl⟩ := List.mem_map.mp hu
    simp [SessionRuntimePool.admitsPeer, hroom]

private theorem Slotted.finishRelease (h : s.Slotted) {rargs : ReleaseArgs} (hk : (s.tasks t).held = none)
    (safe reset : Bool) (unread : List UnreadFrame) (now : Nat) :
    (s.finishRelease t r rargs safe reset unread now).Slotted := by
  have hsettle (v : SessionRuntime) (hv : (s.setRuntime r v).Slotted) :
      ((s.setRuntime r v).settleRelease t r rargs.keepWarm).Slotted := by
    unfold PoolSystem.settleRelease
    split
    · exact (hv.evict r).pass _ (.inl hk)
    · exact hv.pass _ (.inl hk)
  simp only [PoolSystem.finishRelease]
  apply hsettle
  apply h.finishTurn
  split <;> rfl

end Leases

/-- The section leaves the limits of the pool as they are. -/
def KeepsLimits (s : PoolSystem) (e : PoolEvent) : Prop :=
  match s.step e with
  | none => True
  | some s' => s'.pool.capacity = s.pool.capacity ∧ s'.pool.activeCapacity = s.pool.activeCapacity

instance (s : PoolSystem) (e : PoolEvent) : Decidable (KeepsLimits s e) :=
  match h : s.step e with
  | none => .isTrue (by simp [KeepsLimits, h])
  | some s' => decidable_of_iff (s'.pool.capacity = s.pool.capacity ∧
      s'.pool.activeCapacity = s.pool.activeCapacity) (by simp [KeepsLimits, h])

def inHandler : TaskPhase → Bool
  | .failing .. => true
  | _ => false

def cancelsHandler (s : PoolSystem) : PoolEvent → Bool
  | .cancel t => inHandler (s.tasks t)
  | _ => false

private theorem shrinks_limits (capacity active : Nat) :
    Shrinks fun s => s.pool.capacity = capacity ∧ s.pool.activeCapacity = active :=
  ⟨fun _ _ h => h, fun _ _ h => h, fun _ _ h => h⟩

section Steps

variable {s s' : PoolSystem}

private theorem Slotted.refresh (h : s.Slotted) (preserve : Option String)
    (hc : (s.refresh memory preserve).pool.capacity = s.pool.capacity)
    (ha : (s.refresh memory preserve).pool.activeCapacity = s.pool.activeCapacity) :
    (s.refresh memory preserve).Slotted := by
  have hlimits : (s.setPool (s.pool.resized memory)).pool.capacity = (s.pool.resized memory).capacity ∧
      (s.setPool (s.pool.resized memory)).pool.activeCapacity =
        (s.pool.resized memory).activeCapacity := ⟨rfl, rfl⟩
  obtain ⟨hc', ha'⟩ := (shrinks_limits _ _).refresh preserve hlimits
  apply shrinks_slotted.refresh preserve
  refine h.setPool rfl rfl rfl rfl ?_ ?_
  · rw [← hc', hc]
  · rw [← ha', ha]

private theorem Slotted.configure (h : s.Slotted) {capacity : Nat}
    (hc : (s.configure capacity).pool.capacity = s.pool.capacity)
    (ha : (s.configure capacity).pool.activeCapacity = s.pool.activeCapacity) :
    (s.configure capacity).Slotted := by
  obtain ⟨hc', ha'⟩ := (shrinks_limits capacity capacity).configure (s := s) ⟨rfl, rfl⟩
  apply shrinks_slotted.configure
  refine h.setPool rfl rfl rfl rfl ?_ ?_
  · rw [← hc, hc']
  · rw [← ha, ha']

private theorem startsPeer_withAdmission {e : RuntimeEvent} {admits : Bool}
    (h : SessionRuntime.startsPeer (e.withAdmission admits) = true) : admits = true := by
  cases e with
  | frame env f => exact h
  | _ => cases h

private theorem Slotted.evolve (h : s.Slotted) {r : Nat} {e : RuntimeEvent}
    (hv : (s.heap r).evolve (e.withAdmission (s.pool.admitsPeer s.heap r memory)) = some v) :
    (s.setRuntime r v).Slotted := by
  have hquiet {state : RuntimeState} (hs : v.state = state)
      (hn : state ≠ .starting ∧ state ≠ .running ∧ state ≠ .draining) :
      (s.setRuntime r v).Slotted := by
    apply h.setRuntime
    intro hc
    simp [SessionRuntime.countsActive, hs, hn] at hc
  cases SessionRuntime.reaches_evolve hv with
  | same hs =>
    apply h.setRuntime
    simp only [SessionRuntime.countsActive, hs]
    exact fun hc _ => hc
  | closing hs => exact hquiet hs (by decide)
  | dead hs _ => exact hquiet hs (by decide)
  | idle hs _ => exact hquiet hs (by decide)
  | draining _ hp =>
    have hadmits := startsPeer_withAdmission hp
    simp only [SessionRuntimePool.admitsPeer, Bool.and_eq_true, decide_eq_true_eq] at hadmits
    exact h.activate _ hadmits.2

private theorem Slotted.switched (h : s.Slotted) (hord : s.Ordered) {t : Nat}
    (hs : s.step (.switched t now) = some s') : s'.Slotted := by
  simp only [PoolSystem.step] at hs
  split at hs
  · rename_i args r fresh hp
    have hm : (s.setRuntime r ((s.heap r).setPermissionMode args.mode)).Slotted :=
      h.setRuntime fun hc _ => hc
    split at hs <;> cases hs
    · apply hm.pass
      right
      rw [show (s.setRuntime r ((s.heap r).setPermissionMode args.mode)).tasks t =
        .switching args r fresh from hp]
      cases fresh <;> rfl
    · rename_i hblocked
      refine hm.takeSwitched ?_ hp ?_
      · exact hord.evolves (SessionRuntime.evolves_setPermissionMode _ _) fun _ _ _ _ hs => hs
      · rintro rfl hres
        exact hord.starting_of_unblocked hp hres hblocked
  · cases hs

private theorem Slotted.step (h : s.Slotted) (hord : s.Ordered) {e : PoolEvent} (hl : KeepsLimits s e)
    (hc : cancelsHandler s e = false) (hs : s.step e = some s') : s'.Slotted := by
  have hl : s'.pool.capacity = s.pool.capacity ∧ s'.pool.activeCapacity = s.pool.activeCapacity := by
    simpa [KeepsLimits, hs] using hl
  cases step_moves hs with
  | acquire args memory =>
    apply (h.refresh (some args.key) hl.1 hl.2).spawn
    exact shrinks_ordered.refresh _ (hord.setPool rfl (Finset.Subset.refl _))
  | admission t deferred now hp =>
    exact h.enter hord (by simp [hp]) (by rw [hp]; rfl)
  | evicted t now hp =>
    exact (h.allocate hord _).pass _ (.inr (by
      rw [show (s.allocate _).tasks t = s.tasks t from rfl, hp]
      rfl))
  | @connected t now args r hp =>
    have hsuits := hord.suits t r (by rw [hp]; rfl)
    rw [hp] at hsuits
    have hidle : (s.setRuntime r ((s.heap r).connected now)).Slotted :=
      h.setRuntime fun hc _ => by cases hc
    refine Slotted.beginTurn ?_ (hord.connectedTurn now hp) fun hn => by cases hn
    apply hidle.pass
    rw [show (s.setRuntime r ((s.heap r).connected now)).tasks t = .connecting args r from hp]
    exact .inr rfl
  | @connectFails t args r hp =>
    have hdead : (s.setRuntime r (s.heap r).poison.requestClose).Slotted := by
      apply h.setRuntime
      rw [SessionRuntime.requestClose_eq]
      intro hc
      cases hc
    apply hdead.pass
    rw [show (s.setRuntime r (s.heap r).poison.requestClose).tasks t = .connecting args r from hp]
    exact .inr rfl
  | switched t now | blocked t now => exact h.switched hord hs
  | @reverted t args r fresh hp =>
    have hm : (s.setRuntime r ((s.heap r).setPermissionMode idlePermissionMode)).Slotted :=
      h.setRuntime fun hc _ => hc
    apply hm.failStart
    rw [show (s.setRuntime r ((s.heap r).setPermissionMode idlePermissionMode)).tasks t =
      .reverting args r fresh from hp]
    cases fresh <;> rfl
  | @startFails t _ _ fresh hp =>
    rcases hp with hp | hp
    all_goals
      apply h.failStart
      rw [hp]
      cases fresh <;> rfl
  | discarded t hk => exact h.discard .ended hk
  | closed t hp => exact h.pass _ (.inl (by rw [hp]; rfl))
  | aborted t _ hk => exact h.pass _ (.inl hk)
  | cancelEviction t hp | cancelConnect t hp => exact h.pass _ (.inr (by rw [hp]; rfl))
  | cancelFailing t hp => simp [cancelsHandler, hp, inHandler] at hc
  | unbindTurn t =>
    apply h.setRuntime
    rw [SessionRuntime.dropBinding_eq]
    exact fun hc _ => hc
  | resetTurn t =>
    exact h.setRuntime fun hc _ => hc
  | remap t sessionId =>
    exact h.remap hord sessionId
  | @release t args r mode hp =>
    have hd : (s.setRuntime r (s.heap r).dropBinding).Slotted := by
      apply h.setRuntime
      rw [SessionRuntime.dropBinding_eq]
      exact fun hc _ => hc
    apply hd.pass
    rw [show (s.setRuntime r (s.heap r).dropBinding).tasks t = .leased r mode from hp]
    exact .inl rfl
  | quiesced t safe reset unread now hp =>
    exact h.finishRelease (by rw [hp]; rfl) safe reset unread now
  | @releaseFails t r _ _ hp =>
    apply (h.evict r).pass
    rw [show (s.evict r).tasks t = s.tasks t from rfl, hp]
    exact .inl rfl
  | evolve r e memory _ hv => exact h.evolve hv
  | refreshCapacity memory preserve =>
    exact h.refresh preserve hl.1 hl.2
  | configure capacity =>
    exact h.configure hl.1 hl.2
  | unconfigured =>
    exact h
  | recycleAll =>
    exact shrinks_slotted.recycleAll h
  | reserveSession key live cancelActive =>
    exact shrinks_slotted.reserveSession h live cancelActive (h.setPool rfl rfl rfl rfl rfl rfl)
  | reserveSweep key expired =>
    exact shrinks_slotted.reserveSweep h key expired
  | releaseMaintenance key =>
    exact h.setPool rfl rfl rfl rfl rfl rfl
  | retire r =>
    apply h.setRuntime
    rw [SessionRuntime.requestClose_eq]
    exact fun hc _ => hc
  | retired r =>
    apply Slotted.evict
    exact h.setRuntime fun hc _ => hc

end Steps

def Tabled (s : PoolSystem) (k : String) : Prop :=
  k ∈ s.pool.starting ∨ k ∈ s.pool.startingTasks ∨ k ∈ s.pool.startingWriteScopes

/-- The limits hold, runtimes are under their keys, and a key is in the tables only while the call
that put it there goes on, or its eviction does; when the victim is closed, the next section of the
eviction takes the key out. -/
structure SlotsKept (s : PoolSystem) : Prop where
  room : s.pool.size + s.pool.starting.card ≤ s.pool.capacity
  active : s.pool.activeCount s.heap none ≤ s.pool.activeCapacity
  keyed : ∀ k r, s.pool.runtimes.lookup k = some r → (s.heap r).key = k
  held : ∀ k, s.Tabled k → ∃ t, (s.tasks t).held = some k ∧
    ∀ victim, s.tasks t = .finishing k victim → s.closeDone victim = true →
      ∃ s', s.step (.closed t) = some s' ∧ ¬s'.Tabled k

private theorem not_tabled_discardKey (s : PoolSystem) (t : Nat) (k : String) : ¬(s.discardKey t k).Tabled k := by
  rintro (h | h | h)
  · exact (Finset.mem_erase.mp h).1 rfl
  · exact (AList.mem_erase.mp h).1 rfl
  · exact (AList.mem_erase.mp h).1 rfl

private theorem Slotted.slotsKept {s : PoolSystem} (h : s.Slotted) (hord : s.Ordered) : s.SlotsKept where
  room := h.room
  active := h.active
  keyed k r hr := ((hord.keyed k r).mp hr).2
  held k hk := by
    have hstarting : k ∈ s.pool.starting := by
      rcases hk with hk | hk | hk
      · exact hk
      · exact h.tasks k hk
      · exact h.scopes k hk
    obtain ⟨t, ht⟩ := h.manned k hstarting
    refine ⟨t, ht, fun victim hp hdone => ⟨s.discardKey t k, ?_, not_tabled_discardKey s t k⟩⟩
    simp [PoolSystem.step, PoolSystem.afterClose, hp, hdone]

/-- No peer turn ends on a resident runtime that is reserved, and no call is cancelled in the handler
of its failed start. -/
def KeepsSlots (s : PoolSystem) (e : PoolEvent) : Prop :=
  KeepsReservation s e ∧ cancelsHandler s e = false

instance (s : PoolSystem) (e : PoolEvent) : Decidable (KeepsSlots s e) :=
  inferInstanceAs (Decidable (KeepsReservation s e ∧ cancelsHandler s e = false))

/-- Whatever the interleaving, the slots stay in order while the limits stay fixed, unless a
reservation is lost or the handler of a failed start is cancelled. -/
theorem slotsKept_of_keepsSlots (capacity : Option Nat) (memory : RuntimeMemorySnapshot)
    (es : List PoolEvent) (s : PoolSystem)
    (hl : RunMeets step KeepsLimits (init capacity memory) es)
    (hm : RunMeets step KeepsSlots (init capacity memory) es)
    (hr : run step (init capacity memory) es = some s) : s.SlotsKept := by
  have hstep (s : PoolSystem) (e : PoolEvent) (s' : PoolSystem) (hi : s.Ordered ∧ s.Slotted)
      (hc : KeepsLimits s e ∧ KeepsSlots s e) (hs : s.step e = some s') :
      s'.Ordered ∧ s'.Slotted :=
    ⟨hi.1.step hc.2.1 hs, hi.2.step hi.1 hc.1 hc.2.2 hs⟩
  obtain ⟨hord, h⟩ := run_invariant hstep
    ⟨ordered_init capacity memory, slotted_init capacity memory⟩ (hl.and hm) hr
  exact h.slotsKept hord

/-- A call is cancelled while its victim closes, and the eviction ends in the background. -/
def cancelledEviction : List PoolEvent :=
  warmUp "a" 0 ++ [.acquire (userArgs "b") {}, .admission 1 false 5, .cancel 1,
    .evolve 0 .closeBegins {}, .evolve 0 .closeDisconnected {}, .evolve 0 .receiverEnds {},
    .evolve 0 .closeJoined {}]

theorem slotsKept_cancelledEviction :
    ∃ s, run step (init (some 1) {}) cancelledEviction = some s ∧ s.tasks 1 = .finishing "b" 0 ∧
      s.closeDone 0 = true ∧ s.SlotsKept := by
  obtain ⟨s, hr, ht⟩ := exists_run_of_map step (init (some 1) {}) cancelledEviction
    (fun s => s.tasks 1 = .finishing "b" 0 ∧ s.closeDone 0 = true) (by decide)
  obtain ⟨hp, hd⟩ := of_decide_eq_true ht
  exact ⟨s, hr, hp, hd, slotsKept_of_keepsSlots (some 1) {} cancelledEviction s (by decide)
    (by decide) hr⟩

/-- A start fails after its connect, and the call is cancelled while its handler waits for the
close, which then ends. -/
def cancelledHandler : List PoolEvent :=
  [.acquire (userArgs "a") {}, .admission 0 false 1, .connected 0 2, .startFails 0, .cancel 0,
    .evolve 0 .closeBegins {}, .evolve 0 .closeDisconnected {}, .evolve 0 .receiverEnds {},
    .evolve 0 .closeJoined {}]

def smallMemory : RuntimeMemorySnapshot := { limitBytes := some (912 * mib) }

def smallWarmUp (key : String) (t : Nat) : List PoolEvent :=
  [.acquire (userArgs key) smallMemory, .admission t false 1, .connected t 2, .switched t 3,
    .release t ⟨true, false⟩, .quiesced t true true [] 4]

/-- A peer turn comes and goes while task 2 switches the mode. Task 3 gets the one active turn that
the pool allows, and task 2 starts its turn as well. -/
def overcommitted : List PoolEvent :=
  smallWarmUp "a" 0 ++ smallWarmUp "b" 1 ++ [.acquire (userArgs "a") smallMemory,
    .admission 2 false 5, peerBegins 0, peerEnds 0, .acquire (userArgs "b") smallMemory,
    .admission 3 false 6, .switched 3 7, .switched 2 8]

theorem slots_lost : (RunMeets step KeepsLimits (init (some 2) {}) cancelledHandler ∧
      ∃ s, run step (init (some 2) {}) cancelledHandler = some s ∧ ¬s.SlotsKept) ∧
    RunMeets step KeepsLimits (init none smallMemory) overcommitted ∧
      ∃ s, run step (init none smallMemory) overcommitted = some s ∧ ¬s.SlotsKept := by
  refine ⟨⟨by decide, ?_⟩, by decide, ?_⟩
  · obtain ⟨s, hr, ht⟩ := exists_run_of_map step (init (some 2) {}) cancelledHandler
      (fun s => "a" ∈ s.pool.starting ∧ ∀ t < s.spawned, (s.tasks t).held = none)
      (by decide)
    obtain ⟨hk, hnone⟩ := of_decide_eq_true ht
    have hord : s.Ordered := run_invariant (fun _ _ _ hi hc hs => hi.step hc hs)
      (ordered_init (some 2) {}) (by decide) hr
    refine ⟨s, hr, fun h => ?_⟩
    obtain ⟨t, ht, -⟩ := h.held "a" (.inl hk)
    by_cases hlt : t < s.spawned
    · rw [hnone t hlt] at ht
      cases ht
    · rw [hord.unspawned t (Nat.le_of_not_lt hlt)] at ht
      cases ht
  · obtain ⟨s, hr, ht⟩ := exists_run_of_map step (init none smallMemory) overcommitted
      (fun s => s.pool.activeCapacity < s.pool.activeCount s.heap none) (by decide)
    refine ⟨s, hr, fun h => ?_⟩
    exact absurd h.active (Nat.not_le.mpr (of_decide_eq_true ht))

end PoolSystem

end PrivaCloud.AgentRunner
