import Mathlib.Data.Finset.Card
import Mathlib.Data.List.Sort
import PrivaCloud.Framework.Dict
import PrivaCloud.AgentRunner.Runtime.SessionRuntime

/-!
# The session runtime pool

The data of `session_runtime_pool.SessionRuntimePool` and the sections under its lock. Runtimes are objects of a heap,
so one that left the pool can still be closing. Shutdown is left out. Memory ratios are fractions.
-/

namespace PrivaCloud.AgentRunner

open Framework

def mib : Nat := 1024 * 1024
def maxSessionRuntimePoolCapacity : Nat := 5
def defaultSessionRuntimePoolCapacity : Nat := 2
def sessionRuntimeServiceReserveBytes : Nat := 512 * mib
def sessionRuntimeIdleBudgetBytes : Nat := 192 * mib
def sessionRuntimeActiveBudgetBytes : Nat := 320 * mib
def maxSessionRuntimeActiveCapacity : Nat := 3

structure RuntimeMemorySnapshot where
  limitBytes : Option Nat := none
  currentBytes : Option Nat := none
  deriving DecidableEq

namespace RuntimeMemorySnapshot

/-- The ratio of used memory is known and is at least `num / den`. -/
def ratioAtLeast (m : RuntimeMemorySnapshot) (num den : Nat) : Bool :=
  match m.limitBytes, m.currentBytes with
  | some limit, some current => limit ≠ 0 && num * limit ≤ den * current
  | _, _ => false

/-- `SESSION_RUNTIME_SOFT_MEMORY_RATIO` is 0.80. -/
def atSoftLimit (m : RuntimeMemorySnapshot) : Bool := m.ratioAtLeast 4 5

/-- `SESSION_RUNTIME_HARD_MEMORY_RATIO` is 0.90. -/
def atHardLimit (m : RuntimeMemorySnapshot) : Bool := m.ratioAtLeast 9 10

/-- `_can_start_physical_runtime`, with one extra start -/
def canStart (m : RuntimeMemorySnapshot) (starting : Nat) : Bool :=
  match m.limitBytes, m.currentBytes with
  | some limit, some current =>
    limit = 0 ||
      current + (starting + 1) * sessionRuntimeActiveBudgetBytes ≤ 9 * limit / 10
  | _, _ => true

end RuntimeMemorySnapshot

def runtimeCapacityForMemory : Option Nat → Nat
  | none => defaultSessionRuntimePoolCapacity
  | some limit =>
    max 1 (min maxSessionRuntimePoolCapacity
      ((limit - sessionRuntimeServiceReserveBytes) / sessionRuntimeIdleBudgetBytes))

def runtimeActiveCapacityForMemory : Option Nat → Nat
  | none => min defaultSessionRuntimePoolCapacity maxSessionRuntimeActiveCapacity
  | some limit =>
    max 1 (min maxSessionRuntimeActiveCapacity
      ((limit - sessionRuntimeServiceReserveBytes) / sessionRuntimeActiveBudgetBytes))

namespace SessionRuntime

def countsActive (v : SessionRuntime) : Bool :=
  v.state = .starting || v.state = .running || v.state = .draining

def dismiss (v : SessionRuntime) : SessionRuntime := { v.requestClose with resident := false }

/-- The reservation of an idle runtime by `acquire`. -/
def reserve (v : SessionRuntime) (writeCapable : Bool) : SessionRuntime :=
  { v with state := .starting, turnWriteCapable := writeCapable }

def retireLater (v : SessionRuntime) : SessionRuntime := { v with retireOnIdle := true }

/-- The registration of a fresh runtime, which retires after its turn if the pool shrank. -/
def moveIn (v : SessionRuntime) (late : Bool) : SessionRuntime :=
  { v with resident := true, retireOnIdle := v.retireOnIdle || late }

def rename (v : SessionRuntime) (sessionId : String) : SessionRuntime :=
  { v with key := sessionId, sessionId := some sessionId }

/-- A session id that another runtime owns leaves the runtime unhealthy. -/
def collide (v : SessionRuntime) : SessionRuntime := { v with healthyFlag := false }

def setRetireTask (v : SessionRuntime) (task : RetireTask) : SessionRuntime :=
  { v with retireTask := task }

/-- The runtime may be closed to make room. -/
def expendable (v : SessionRuntime) : Bool := v.evictable || !v.healthy

end SessionRuntime

structure SessionRuntimePool where
  capacity : Nat
  activeCapacity : Nat
  capacityOverride : Bool
  runtimes : Dict String Nat := ∅
  starting : Finset String := ∅
  startingTasks : Dict String Nat := ∅
  startingWriteScopes : Dict String (List Path) := ∅
  maintenanceKeys : Finset String := ∅

namespace SessionRuntimePool

def init (capacity : Option Nat) (memory : RuntimeMemorySnapshot) : SessionRuntimePool :=
  { capacity := capacity.getD (runtimeCapacityForMemory memory.limitBytes)
    activeCapacity := capacity.getD (runtimeActiveCapacityForMemory memory.limitBytes)
    capacityOverride := capacity.isSome }

variable (p : SessionRuntimePool) (heap : Nat → SessionRuntime)

/-- `len(self._runtimes)` -/
def size : Nat := p.runtimes.entries.length

def residents : Finset Nat := p.runtimes.values.toFinset

/-- `_active_count_locked` -/
def activeCount (exclude : Option Nat) : Nat :=
  p.starting.card + (p.residents.filter fun r => some r ≠ exclude ∧ (heap r).countsActive).card

/-- `_admit_native_peer` -/
def admitsPeer (r : Nat) (memory : RuntimeMemorySnapshot) : Bool :=
  !memory.atSoftLimit && p.activeCount heap (some r) < p.activeCapacity

/-- The runtimes that may be closed, least recently used first. -/
def expendables (preserve : Option String) : List Nat :=
  (p.runtimes.values.reverse.filter fun r =>
    (heap r).expendable && some (heap r).key ≠ preserve).insertionSort
      fun a b => (heap a).lastUsed ≤ (heap b).lastUsed

/-- The victims of the loop of `_apply_capacity`, which counts a removed runtime twice. -/
def overflowVictims (capacity : Nat) : Nat → Nat → List Nat → List Nat
  | _, _, [] => []
  | size, removed, v :: rest =>
    if capacity < size - removed then v :: overflowVictims capacity (size - 1) (removed + 1) rest
    else []

/-- The first section of `refresh_capacity`: the new limits. -/
def resized (memory : RuntimeMemorySnapshot) : SessionRuntimePool :=
  let target := if p.capacityOverride then p.capacity else runtimeCapacityForMemory memory.limitBytes
  let active :=
    if p.capacityOverride then p.activeCapacity else runtimeActiveCapacityForMemory memory.limitBytes
  { p with capacity := target, activeCapacity := max 1 (min target active) }

/-- The victims of `refresh_capacity`. -/
def refreshVictims (memory : RuntimeMemorySnapshot) (preserve : Option String) : List Nat :=
  if memory.atSoftLimit then p.expendables heap preserve
  else (p.expendables heap preserve).take (p.residents.card - p.capacity)

def startingOverlap (scope : List Path) : Bool :=
  p.startingWriteScopes.values.any fun other => writeScopesOverlap scope other

def residentOverlap (scope : List Path) : Bool :=
  p.runtimes.values.any fun r =>
    (heap r).turnWriteCapable && writeScopesOverlap scope (heap r).writeScope

inductive AdmissionError
  | sessionRuntimeBusy
  | memoryPressure
  | capacity
  | writeScopeBusy

inductive Admission
  | refused (error : AdmissionError)
  | reuse (r : Nat)
  | evict (victim : Nat)
  | start

/-- The branch of the admission block for a key without a runtime. -/
def admissionFresh (memory : RuntimeMemorySnapshot) : Admission :=
  if p.capacity ≤ p.size + p.starting.card then
    match p.expendables heap none with
    | [] => .refused .capacity
    | victim :: _ => .evict victim
  else if memory.canStart p.starting.card then .start
  else .refused .memoryPressure

/-- The admission block of `acquire`. -/
def admission (key : String) (options : RuntimeOptions) (memory : RuntimeMemorySnapshot) : Admission :=
  if key ∈ p.maintenanceKeys then .refused .sessionRuntimeBusy
  else if key ∈ p.starting then .refused .sessionRuntimeBusy
  else if memory.atHardLimit then .refused .memoryPressure
  else if (p.runtimes.lookup key).any fun r => (heap r).healthy && !(heap r).evictable then
    .refused .sessionRuntimeBusy
  else if p.activeCapacity ≤ p.activeCount heap none then .refused .capacity
  else if options.turnPermissionMode ≠ idlePermissionMode &&
      (p.residentOverlap heap options.writeScope || p.startingOverlap options.writeScope) then
    .refused .writeScopeBusy
  else
    match p.runtimes.lookup key with
    | none => p.admissionFresh heap memory
    | some r =>
      if !(heap r).healthy then .evict r
      else if (heap r).fingerprint = options.fingerprint then .reuse r
      else .evict r

def addStarting (key : String) (task : Nat) (options : RuntimeOptions) : SessionRuntimePool :=
  { p with
    starting := insert key p.starting
    startingTasks := p.startingTasks.insert key task
    startingWriteScopes :=
      if options.turnPermissionMode ≠ idlePermissionMode then
        p.startingWriteScopes.insert key options.writeScope
      else p.startingWriteScopes }

def discardStarting (key : String) : SessionRuntimePool :=
  { p with
    starting := p.starting.erase key
    startingTasks := p.startingTasks.erase key
    startingWriteScopes := p.startingWriteScopes.erase key }

/-- `_remove_locked` -/
def remove (r : Nat) : SessionRuntimePool := { p with runtimes := p.runtimes.popValue r }

def enter (key : String) (r : Nat) : SessionRuntimePool :=
  { p with runtimes := p.runtimes.insert key r }

def rekey (old new : String) (r : Nat) : SessionRuntimePool :=
  { p with runtimes := (p.runtimes.erase old).insert new r }

/-- The checks that come before the choice of a runtime. -/
structure Clear (key : String) (options : RuntimeOptions) : Prop where
  starting : key ∉ p.starting
  idle : ∀ r, p.runtimes.lookup key = some r → (heap r).healthy = true → (heap r).evictable = true
  active : p.activeCount heap none < p.activeCapacity
  writes : options.turnPermissionMode ≠ idlePermissionMode → p.residentOverlap heap options.writeScope = false ∧
      p.startingOverlap options.writeScope = false

variable {p heap}

private theorem admission_cases (key : String) (options : RuntimeOptions) (memory : RuntimeMemorySnapshot) :
    (∃ e, p.admission heap key options memory = .refused e) ∨ p.Clear heap key options ∧
        p.admission heap key options memory = match p.runtimes.lookup key with
          | none => p.admissionFresh heap memory
          | some r =>
            if !(heap r).healthy then .evict r
            else if (heap r).fingerprint = options.fingerprint then .reuse r
            else .evict r := by
  unfold admission
  split
  · exact .inl ⟨_, rfl⟩
  split
  · exact .inl ⟨_, rfl⟩
  rename_i hstarting
  split
  · exact .inl ⟨_, rfl⟩
  split
  · exact .inl ⟨_, rfl⟩
  rename_i hbusy
  split
  · exact .inl ⟨_, rfl⟩
  rename_i hactive
  split
  · exact .inl ⟨_, rfl⟩
  rename_i hwrites
  right
  refine ⟨⟨hstarting, ?_, Nat.lt_of_not_le hactive, ?_⟩, rfl⟩
  · intro r hr hh
    simpa [hr, hh] using hbusy
  · intro hm
    simpa [hm] using hwrites

/-- What an answer rests on, apart from the checks that come before -/
def Backed (p : SessionRuntimePool) (heap : Nat → SessionRuntime) (key : String)
    (options : RuntimeOptions) : Admission → Prop
  | .reuse r =>
    p.runtimes.lookup key = some r ∧ (heap r).healthy = true ∧ (heap r).fingerprint = options.fingerprint
  | .evict v => p.runtimes.lookup key = some v ∨
      p.runtimes.lookup key = none ∧ p.capacity ≤ p.size + p.starting.card ∧ v ∈ p.expendables heap none
  | .start => p.runtimes.lookup key = none ∧ p.size + p.starting.card < p.capacity
  | .refused _ => True

private theorem admissionFresh_backed {key : String} (options : RuntimeOptions) (memory : RuntimeMemorySnapshot)
    (hlookup : p.runtimes.lookup key = none) : p.Backed heap key options (p.admissionFresh heap memory) := by
  unfold admissionFresh
  split
  · rename_i hfull
    split
    · trivial
    · rename_i hl
      exact .inr ⟨hlookup, hfull, by simp [hl]⟩
  · rename_i hroom
    split
    · exact ⟨hlookup, Nat.lt_of_not_le hroom⟩
    · trivial

theorem admission_backed {key : String} {options : RuntimeOptions} {memory : RuntimeMemorySnapshot}
    {answer : Admission} (h : p.admission heap key options memory = answer) (hgiven : ∀ e, answer ≠ .refused e) :
    p.Clear heap key options ∧ p.Backed heap key options answer := by
  obtain ⟨e, he⟩ | ⟨hclear, he⟩ := admission_cases (p := p) key options memory
  · exact absurd (h.symm.trans he) (hgiven e)
  · refine ⟨hclear, ?_⟩
    rw [← h, he]
    split
    · exact admissionFresh_backed options memory ‹_›
    · rename_i r hr
      split
      · exact .inl hr
      · rename_i hhealthy
        split
        · rename_i hprint
          exact ⟨hr, by simpa using hhealthy, hprint⟩
        · exact .inl hr

theorem mem_expendables {preserve : Option String} {v : Nat} (h : v ∈ p.expendables heap preserve) :
    (∃ k, p.runtimes.lookup k = some v) ∧ (heap v).expendable = true := by
  simp only [expendables, List.mem_insertionSort, List.mem_filter, List.mem_reverse, Bool.and_eq_true] at h
  exact ⟨Dict.mem_values.mp h.1, h.2.1⟩

theorem mem_overflowVictims {capacity size removed v : Nat} {idle : List Nat}
    (h : v ∈ overflowVictims capacity size removed idle) : v ∈ idle := by
  induction idle generalizing size removed with
  | nil => cases h
  | cons w rest ih =>
    simp only [overflowVictims] at h
    split at h
    · rcases List.mem_cons.mp h with rfl | h
      · exact List.mem_cons_self
      · exact List.mem_cons_of_mem _ (ih h)
    · cases h

theorem mem_refreshVictims {memory : RuntimeMemorySnapshot} {preserve : Option String} {v : Nat}
    (h : v ∈ p.refreshVictims heap memory preserve) : v ∈ p.expendables heap preserve := by
  unfold refreshVictims at h
  split at h
  · exact h
  · exact List.mem_of_mem_take h

end SessionRuntimePool

end PrivaCloud.AgentRunner
