import PrivaCloud.AgentRunner.Pool.Slots

/-!
# A smaller pool

The two eviction loops, of `_apply_capacity` and of `refresh_capacity`, on any population. The first
one subtracts its victims from a count that they have already left, so it stops half way.
-/

namespace PrivaCloud.AgentRunner

open Framework

namespace SessionRuntimePool

variable {p : SessionRuntimePool} {heap : Nat → SessionRuntime}

private theorem overflowVictims_eq_take (capacity size removed : Nat) (idle : List Nat) :
    overflowVictims capacity size removed idle = idle.take ((size - removed - capacity + 1) / 2) := by
  induction idle generalizing size removed with
  | nil => rw [overflowVictims, List.take_nil]
  | cons v rest ih =>
    rw [overflowVictims]
    split
    · have hgap : (size - removed - capacity + 1) / 2 =
          (size - 1 - (removed + 1) - capacity + 1) / 2 + 1 := by omega
      rw [ih, hgap, List.take_succ_cons]
    · have hgap : (size - removed - capacity + 1) / 2 = 0 := by omega
      rw [hgap, List.take_zero]

private theorem pairwise_expendables (p : SessionRuntimePool) (heap : Nat → SessionRuntime) (preserve : Option String) :
    (p.expendables heap preserve).Pairwise fun a b => (heap a).lastUsed ≤ (heap b).lastUsed := by
  have : Std.Total fun a b : Nat => (heap a).lastUsed ≤ (heap b).lastUsed :=
    ⟨fun a b => Nat.le_total (heap a).lastUsed (heap b).lastUsed⟩
  have : IsTrans Nat fun a b => (heap a).lastUsed ≤ (heap b).lastUsed :=
    ⟨fun _ _ _ => Nat.le_trans⟩
  exact List.pairwise_insertionSort _ _

private theorem nodup_expendables (h : p.runtimes.values.Nodup) (preserve : Option String) :
    (p.expendables heap preserve).Nodup := by
  rw [expendables, (List.perm_insertionSort _ _).nodup_iff]
  exact (List.nodup_reverse.mpr h).filter _

def expendableResidents (p : SessionRuntimePool) (heap : Nat → SessionRuntime) : Finset Nat :=
  p.residents.filter fun r => (heap r).expendable

private theorem toFinset_expendables (p : SessionRuntimePool) (heap : Nat → SessionRuntime) :
    (p.expendables heap none).toFinset = p.expendableResidents heap := by
  ext r
  simp [expendables, expendableResidents, residents]

private theorem length_expendables (h : p.runtimes.values.Nodup) :
    (p.expendables heap none).length = (p.expendableResidents heap).card := by
  rw [← toFinset_expendables, List.toFinset_card_of_nodup (nodup_expendables h none)]

private theorem card_residents (h : p.runtimes.values.Nodup) : p.residents.card = p.size := by
  rw [residents, List.toFinset_card_of_nodup h, Dict.values, List.length_map, size]

def busyResidents (p : SessionRuntimePool) (heap : Nat → SessionRuntime) : Finset Nat :=
  p.residents.filter fun r => (heap r).healthy && !(heap r).evictable

private theorem card_expendable_add_busy (p : SessionRuntimePool) (heap : Nat → SessionRuntime) :
    (p.expendableResidents heap).card + (p.busyResidents heap).card = p.residents.card := by
  have hbusy : p.busyResidents heap = p.residents.filter fun r => ¬(heap r).expendable = true := by
    apply Finset.filter_congr
    intro r _
    simp only [SessionRuntime.expendable]
    cases (heap r).healthy <;> cases (heap r).evictable <;> decide
  rw [hbusy]
  exact Finset.card_filter_add_card_filter_not _

end SessionRuntimePool

namespace PoolSystem

variable {s : PoolSystem}

private theorem residents_evict (s : PoolSystem) (r : Nat) : (s.evict r).pool.residents = s.pool.residents.erase r := by
  ext w
  simp only [Finset.mem_erase, SessionRuntimePool.mem_residents]
  change (∃ k, (s.pool.runtimes.popValue r).lookup k = some w) ↔ _
  simp only [Dict.lookup_popValue]
  tauto

private theorem residents_evictAll (s : PoolSystem) (victims : List Nat) :
    (s.evictAll victims).pool.residents = s.pool.residents \ victims.toFinset := by
  induction victims generalizing s with
  | nil => simp [evictAll]
  | cons v rest ih =>
    have hrest := ih (s.evict v)
    simp only [evictAll, List.foldl_cons] at hrest ⊢
    rw [hrest, residents_evict]
    ext w
    simp only [Finset.mem_sdiff, Finset.mem_erase, List.toFinset_cons, Finset.mem_insert]
    tauto

def closedBy (s s' : PoolSystem) : Finset Nat := s.pool.residents \ s'.pool.residents

private theorem closedBy_of_sdiff {s' : PoolSystem} {victims : List Nat} {preserve : Option String}
    (hres : s'.pool.residents = s.pool.residents \ victims.toFinset)
    (hv : ∀ v ∈ victims, v ∈ s.pool.expendables s.heap preserve) :
    s.closedBy s' = victims.toFinset := by
  rw [closedBy, hres, Finset.sdiff_sdiff_eq_self]
  intro v hmem
  obtain ⟨hin, -⟩ := SessionRuntimePool.mem_expendables (hv v (List.mem_toFinset.mp hmem))
  exact SessionRuntimePool.mem_residents.mpr hin

private theorem residents_configure (s : PoolSystem) (capacity : Nat) :
    (s.configure capacity).pool.residents = s.pool.residents \
      ((s.pool.expendables s.heap none).take ((s.pool.size - capacity + 1) / 2)).toFinset := by
  have hvictims := SessionRuntimePool.overflowVictims_eq_take capacity s.pool.size 0
    (s.pool.expendables s.heap none)
  rw [Nat.sub_zero] at hvictims
  rw [← hvictims]
  simp only [configure]
  split
  · exact residents_evictAll _ _
  · exact residents_evictAll _ _

private theorem residents_refresh (s : PoolSystem) {memory : RuntimeMemorySnapshot}
    (hsoft : memory.atSoftLimit = false) :
    (s.refresh memory none).pool.residents = s.pool.residents \
      ((s.pool.expendables s.heap none).take
        (s.pool.residents.card - (s.pool.resized memory).capacity)).toFinset := by
  have hvictims : (s.pool.resized memory).refreshVictims s.heap memory none =
      (s.pool.expendables s.heap none).take
        (s.pool.residents.card - (s.pool.resized memory).capacity) := by
    simp only [SessionRuntimePool.refreshVictims, hsoft]
    rfl
  rw [← hvictims]
  simp only [refresh]
  split
  · exact residents_evictAll _ _
  · exact residents_evictAll _ _

/-- What the limit `capacity` asks of `configure`, and of `refresh_capacity` from any pool with the
same runtimes. -/
structure Shrunk (s : PoolSystem) (capacity : Nat) : Prop where
  bound : (s.configure capacity).pool.residents.card ≤
    max capacity (s.pool.busyResidents s.heap).card
  recent : ∀ v ∈ s.closedBy (s.configure capacity), (s.heap v).expendable = true ∧
    ∀ w ∈ (s.configure capacity).pool.residents, (s.heap w).expendable = true →
      (s.heap v).lastUsed ≤ (s.heap w).lastUsed
  needed : (s.closedBy (s.configure capacity)).card ≤ s.pool.residents.card - capacity
  refreshed : ∀ (t : PoolSystem) (memory : RuntimeMemorySnapshot), t.heap = s.heap →
    t.pool.runtimes = s.pool.runtimes → memory.atSoftLimit = false →
    (t.pool.resized memory).capacity = capacity →
    t.closedBy (t.refresh memory none) = s.closedBy (s.configure capacity)

private theorem lastUsed_le_of_mem_take (s : PoolSystem) (preserve : Option String) {k v w : Nat}
    (hv : v ∈ (s.pool.expendables s.heap preserve).take k)
    (hw : w ∈ s.pool.expendables s.heap preserve)
    (hstays : w ∉ (s.pool.expendables s.heap preserve).take k) :
    (s.heap v).lastUsed ≤ (s.heap w).lastUsed := by
  have hsorted := s.pool.pairwise_expendables s.heap preserve
  rw [← List.take_append_drop k (s.pool.expendables s.heap preserve)] at hsorted hw
  have hdrop := (List.mem_append.mp hw).resolve_left hstays
  exact (List.pairwise_append.mp hsorted).2.2 v hv w hdrop

private theorem closedBy_configure (s : PoolSystem) (capacity : Nat) : s.closedBy (s.configure capacity) =
      ((s.pool.expendables s.heap none).take ((s.pool.size - capacity + 1) / 2)).toFinset :=
  closedBy_of_sdiff (s.residents_configure capacity) fun _ hv => List.mem_of_mem_take hv

private theorem card_closedBy_configure (hset : s.pool.runtimes.values.Nodup) (capacity : Nat) :
    (s.closedBy (s.configure capacity)).card = min ((s.pool.residents.card - capacity + 1) / 2)
        (s.pool.expendableResidents s.heap).card := by
  have hnodup : (s.pool.expendables s.heap none).Nodup := SessionRuntimePool.nodup_expendables hset none
  rw [closedBy_configure, List.toFinset_card_of_nodup (hnodup.sublist (List.take_sublist _ _)),
    List.length_take, SessionRuntimePool.length_expendables hset,
    SessionRuntimePool.card_residents hset]

private theorem card_configure_add_closedBy (s : PoolSystem) (capacity : Nat) :
    (s.configure capacity).pool.residents.card + (s.closedBy (s.configure capacity)).card =
      s.pool.residents.card := by
  have hsub : (s.configure capacity).pool.residents ⊆ s.pool.residents := by
    rw [residents_configure]
    exact Finset.sdiff_subset
  rw [closedBy, Nat.add_comm, Finset.card_sdiff_add_card_eq_card hsub]

private theorem closedBy_refresh {t : PoolSystem} {memory : RuntimeMemorySnapshot} (hheap : t.heap = s.heap)
    (hruntimes : t.pool.runtimes = s.pool.runtimes) (hsoft : memory.atSoftLimit = false) :
    t.closedBy (t.refresh memory none) = ((s.pool.expendables s.heap none).take
        (s.pool.residents.card - (t.pool.resized memory).capacity)).toFinset := by
  have hexp : t.pool.expendables t.heap none = s.pool.expendables s.heap none := by
    simp only [SessionRuntimePool.expendables, hheap, hruntimes]
  have hres : t.pool.residents = s.pool.residents := by
    simp only [SessionRuntimePool.residents, hruntimes]
  rw [closedBy_of_sdiff (t.residents_refresh hsoft) fun _ hv => List.mem_of_mem_take hv, hexp, hres]

/-- `configure` shrinks the pool as its limit asks exactly when at most one runtime is over the
limit, or half of the overflow takes every runtime that may be closed. -/
theorem shrunk_iff (s : PoolSystem) (hset : s.pool.runtimes.values.Nodup) (capacity : Nat) :
    s.Shrunk capacity ↔ s.pool.residents.card ≤ capacity + 1 ∨
      2 * (s.pool.expendableResidents s.heap).card ≤ s.pool.residents.card - capacity + 1 := by
  have hclosed := card_closedBy_configure hset capacity
  have hafter := s.card_configure_add_closedBy capacity
  have hparts := s.pool.card_expendable_add_busy s.heap
  constructor
  · intro h
    have hbound := h.bound
    omega
  · intro hfew
    refine ⟨?_, ?_, ?_, ?_⟩
    · omega
    · intro v hv
      rw [closedBy_configure, List.mem_toFinset] at hv
      refine ⟨(SessionRuntimePool.mem_expendables (List.mem_of_mem_take hv)).2, ?_⟩
      intro w hw hexp
      rw [residents_configure, Finset.mem_sdiff, List.mem_toFinset] at hw
      have hmem : w ∈ (s.pool.expendables s.heap none).toFinset := by
        rw [SessionRuntimePool.toFinset_expendables]
        exact Finset.mem_filter.mpr ⟨hw.1, hexp⟩
      exact s.lastUsed_le_of_mem_take none hv (List.mem_toFinset.mp hmem) hw.2
    · omega
    · intro t memory hheap hruntimes hsoft hcapacity
      have hlength : (s.pool.expendables s.heap none).length = (s.pool.expendableResidents s.heap).card :=
        SessionRuntimePool.length_expendables hset
      rw [closedBy_refresh hheap hruntimes hsoft, closedBy_configure, hcapacity,
        ← SessionRuntimePool.card_residents hset]
      rcases hfew with hone | hall
      · have hsame : s.pool.residents.card - capacity = (s.pool.residents.card - capacity + 1) / 2 := by omega
        rw [← hsame]
      · rw [List.take_of_length_le (by omega), List.take_of_length_le (by omega)]

def warmThree : List PoolEvent := warmUp "a" 0 ++ warmUp "b" 1 ++ warmUp "c" 2

/-- One runtime is over the limit of two, and the shrink closes it. -/
theorem shrunk_warmThree : ∃ s, run step (init (some 3) {}) warmThree = some s ∧
    s.pool.residents.card = 3 ∧ s.Shrunk 2 := by
  obtain ⟨s, hr, ht⟩ := exists_run_of_map step (init (some 3) {}) warmThree
    (fun s => s.pool.residents.card = 3 ∧ s.pool.runtimes.values.Nodup) (by decide)
  obtain ⟨hcard, hset⟩ := of_decide_eq_true ht
  exact ⟨s, hr, hcard, (shrunk_iff s hset 2).mpr (.inl (by omega))⟩

/-- Three idle runtimes, and the limit of one leaves two of them. -/
theorem not_shrunk_warmThree : ∃ s, run step (init (some 3) {}) warmThree = some s ∧ ¬s.Shrunk 1 := by
  obtain ⟨s, hr, ht⟩ := exists_run_of_map step (init (some 3) {}) warmThree
    (fun s => (s.pool.busyResidents s.heap).card = 0 ∧ (s.configure 1).pool.residents.card = 2) (by decide)
  obtain ⟨hbusy, hleft⟩ := of_decide_eq_true ht
  refine ⟨s, hr, fun h => ?_⟩
  have hbound := h.bound
  omega

end PoolSystem

end PrivaCloud.AgentRunner
