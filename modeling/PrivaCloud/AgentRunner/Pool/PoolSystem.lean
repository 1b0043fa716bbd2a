import PrivaCloud.AgentRunner.Pool.SessionRuntimePool

/-!
# The pool with its callers

Every call of `acquire`, the leases and their releases, capacity changes, maintenance, retirement and
the runtimes, interleaved at their awaits. Tasks are numbered as they call `acquire`; a task lives on
as its lease, as the release of it, or as the eviction that it left behind, and its turn's queue has
its number. A close that a section waits for is requested in the section itself.
-/

namespace PrivaCloud.AgentRunner

open Framework

structure AcquireArgs where
  key : String
  options : RuntimeOptions
  binding : RunBinding
  deriving DecidableEq

def AcquireArgs.mode (a : AcquireArgs) : PermissionMode := a.options.turnPermissionMode

structure ReleaseArgs where
  keepWarm : Bool
  tainted : Bool
  deriving DecidableEq

/-- Where a task is suspended. `fresh` says that the runtime was made by this very call. -/
inductive TaskPhase
  | new
  /-- awaiting the victims of `refresh_capacity` -/
  | refreshing (args : AcquireArgs) (memory : RuntimeMemorySnapshot) (victims : List Nat)
  /-- awaiting `victim.close()` -/
  | evicting (args : AcquireArgs) (victim : Nat)
  | connecting (args : AcquireArgs) (r : Nat)
  /-- in the handler of `connect`, awaiting `close` -/
  | connectFailing (key : String) (r : Nat)
  /-- in `start_turn`, awaiting `set_permission_mode(mode)` -/
  | switching (args : AcquireArgs) (r : Nat) (fresh : Bool)
  /-- in `start_turn`, awaiting `set_permission_mode(IDLE_PERMISSION_MODE)` -/
  | reverting (args : AcquireArgs) (r : Nat) (fresh : Bool)
  /-- in the handler of a fresh start, awaiting `runtime.close()` -/
  | failing (key : String) (r : Nat)
  /-- awaiting the close of a runtime that is not in the pool any more -/
  | closing (r : Nat)
  /-- `acquire` returned a lease that is not released -/
  | leased (r : Nat) (mode : PermissionMode)
  /-- in `release`, before the last section of `finish_turn` -/
  | releasing (r : Nat) (mode : PermissionMode) (args : ReleaseArgs)
  /-- `finish_cancelled_eviction`, awaiting `victim.close()` -/
  | finishing (key : String) (victim : Nat)
  | ended
  deriving DecidableEq

namespace TaskPhase

/-- The runtime that the task has reserved, made or leased. -/
def owned : TaskPhase → Option Nat
  | .connecting _ r | .switching _ r _ | .reverting _ r _ | .leased r _ | .releasing r _ _ => some r
  | .new | .refreshing .. | .evicting .. | .connectFailing .. | .failing .. | .closing _
  | .finishing .. | .ended => none

/-- The key that the task keeps in the tables of starting runtimes. -/
def held : TaskPhase → Option String
  | .evicting args _ | .connecting args _ | .switching args _ true | .reverting args _ true =>
    some args.key
  | .connectFailing key _ | .failing key _ | .finishing key _ => some key
  | .new | .refreshing .. | .switching _ _ false | .reverting _ _ false | .closing _ | .leased ..
  | .releasing .. | .ended => none

end TaskPhase

structure PoolSystem where
  pool : SessionRuntimePool
  heap : Nat → SessionRuntime := fun _ => { key := "" }
  allocated : Nat := 0
  tasks : Nat → TaskPhase := fun _ => .new
  spawned : Nat := 0

structure UnreadFrame where
  frame : Frame
  claim : PeerClaim := .created 0
  memory : RuntimeMemorySnapshot := {}
  now : Nat := 0
  deriving DecidableEq

inductive PoolEvent
  /-- a new task calls `acquire`, which refreshes the capacity -/
  | acquire (args : AcquireArgs) (memory : RuntimeMemorySnapshot)
  /-- the admission block; `deferred` says whether a reused runtime has deferred frames -/
  | admission (t : Nat) (deferred : Bool) (now : Nat)
  | evicted (t : Nat) (now : Nat)
  | connected (t : Nat) (now : Nat)
  /-- `connect` raises or is cancelled -/
  | connectFails (t : Nat)
  | switched (t : Nat) (now : Nat)
  | reverted (t : Nat)
  /-- a control request of `start_turn` raises or is cancelled -/
  | startFails (t : Nat)
  /-- the awaited close is done -/
  | closed (t : Nat)
  /-- the task is cancelled while it awaits a close -/
  | cancel (t : Nat)
  /-- the two halves of `quiesce_turn_security`, called by the run before its release -/
  | unbindTurn (t : Nat)
  | resetTurn (t : Nat)
  | remap (t : Nat) (sessionId : String)
  | release (t : Nat) (args : ReleaseArgs)
  /-- the last section of `finish_turn` and the decision of `release`; `safe` is the result of the
  quiesce, `reset` says whether its control request completed -/
  | quiesced (t : Nat) (safe reset : Bool) (unread : List UnreadFrame) (now : Nat)
  /-- `finish_turn` raises -/
  | releaseFails (t : Nat)
  | evolve (r : Nat) (e : RuntimeEvent) (memory : RuntimeMemorySnapshot)
  | refreshCapacity (memory : RuntimeMemorySnapshot) (preserve : Option String)
  | configure (capacity : Nat)
  | recycleAll
  /-- the first section of `reserve_session`; `live` says whether the session has a live record -/
  | reserveSession (key : String) (live cancelActive : Bool)
  /-- a turn of the loop of `reserve_session(cancel_active=True)` -/
  | reserveSweep (key : String) (expired : Bool)
  | releaseMaintenance (key : String)
  /-- `_retire_dead_runtime` and its end -/
  | retire (r : Nat)
  | retired (r : Nat)

namespace PoolSystem

def init (capacity : Option Nat) (memory : RuntimeMemorySnapshot) : PoolSystem :=
  { pool := .init capacity memory }

def setRuntime (s : PoolSystem) (r : Nat) (v : SessionRuntime) : PoolSystem :=
  { s with heap := Function.update s.heap r v }

def setTask (s : PoolSystem) (t : Nat) (phase : TaskPhase) : PoolSystem :=
  { s with tasks := Function.update s.tasks t phase }

def allocate (s : PoolSystem) (v : SessionRuntime) : PoolSystem :=
  { s with heap := Function.update s.heap s.allocated v, allocated := s.allocated + 1 }

def spawn (s : PoolSystem) (phase : TaskPhase) : PoolSystem :=
  { s with tasks := Function.update s.tasks s.spawned phase, spawned := s.spawned + 1 }

def setPool (s : PoolSystem) (pool : SessionRuntimePool) : PoolSystem := { s with pool := pool }

def evict (s : PoolSystem) (r : Nat) : PoolSystem :=
  (s.setPool (s.pool.remove r)).setRuntime r (s.heap r).dismiss

def evictAll (s : PoolSystem) (victims : List Nat) : PoolSystem := victims.foldl evict s

/-- The residents that `busy` picks retire at the end of their turn. -/
def retireBusy (s : PoolSystem) (busy : SessionRuntime → Bool) : PoolSystem :=
  { s with heap := fun r =>
    if r ∈ s.pool.residents ∧ busy (s.heap r) = true then (s.heap r).retireLater
    else s.heap r }

def refresh (s : PoolSystem) (memory : RuntimeMemorySnapshot) (preserve : Option String) : PoolSystem :=
  let s := s.setPool (s.pool.resized memory)
  let victims := s.pool.refreshVictims s.heap memory preserve
  let overflow := (s.pool.expendables s.heap preserve).take (s.pool.residents.card - s.pool.capacity)
  if s.pool.capacity < s.pool.residents.card - overflow.length then
    (s.retireBusy (!·.evictable)).evictAll victims
  else s.evictAll victims

def configure (s : PoolSystem) (capacity : Nat) : PoolSystem :=
  let s := s.setPool
    { s.pool with capacityOverride := true, activeCapacity := capacity, capacity := capacity }
  let victims := SessionRuntimePool.overflowVictims capacity s.pool.size 0
    (s.pool.expendables s.heap none)
  let s := s.evictAll victims
  if capacity < s.pool.size then s.retireBusy (!·.evictable) else s

def recycleAll (s : PoolSystem) : PoolSystem :=
  (s.retireBusy (!·.expendable)).evictAll
    (s.pool.runtimes.values.filter fun r => (s.heap r).expendable)

/-- The first section of `reserve_session`. -/
def reserveSession (s : PoolSystem) (key : String) (live cancelActive : Bool) : PoolSystem :=
  if key ∈ s.pool.maintenanceKeys then s
  else
    let runtime := s.pool.runtimes.lookup key
    let busy := key ∈ s.pool.starting || live || runtime.any fun r => !(s.heap r).evictable
    if busy && !cancelActive then s
    else
      let s := s.setPool { s.pool with maintenanceKeys := insert key s.pool.maintenanceKeys }
      match runtime with
      | none => s
      | some r =>
        let s := s.setRuntime r (s.heap r).retireLater
        if (s.heap r).evictable then s.evict r else s

def reserveSweep (s : PoolSystem) (key : String) (expired : Bool) : PoolSystem :=
  match s.pool.runtimes.lookup key with
  | none => s
  | some r =>
    let s := s.setRuntime r (s.heap r).retireLater
    if key ∉ s.pool.starting ∧ (s.heap r).expendable ∨ expired then s.evict r else s

/-- The property survives that runtimes leave the pool and that they are marked to retire. -/
structure Shrinks (P : PoolSystem → Prop) : Prop where
  evict : ∀ s r, P s → P (s.evict r)
  retireBusy : ∀ s busy, P s → P (s.retireBusy busy)
  retireLater : ∀ s r, P s → P (s.setRuntime r (s.heap r).retireLater)

namespace Shrinks

variable {P : PoolSystem → Prop} {s : PoolSystem}

private theorem evictAll (hP : Shrinks P) (h : P s) (victims : List Nat) : P (s.evictAll victims) := by
  induction victims generalizing s with
  | nil => exact h
  | cons v rest ih => exact ih (hP.evict s v h)

theorem refresh (hP : Shrinks P) {memory : RuntimeMemorySnapshot} (preserve : Option String)
    (h : P (s.setPool (s.pool.resized memory))) : P (s.refresh memory preserve) := by
  simp only [PoolSystem.refresh]
  split
  · apply hP.evictAll
    exact hP.retireBusy _ _ h
  · exact hP.evictAll h _

theorem configure (hP : Shrinks P) {capacity : Nat} (h : P (s.setPool { s.pool with
    capacityOverride := true, activeCapacity := capacity, capacity := capacity })) :
    P (s.configure capacity) := by
  simp only [PoolSystem.configure]
  split
  · apply hP.retireBusy
    exact hP.evictAll h _
  · exact hP.evictAll h _

theorem recycleAll (hP : Shrinks P) (h : P s) : P s.recycleAll :=
  hP.evictAll (hP.retireBusy _ _ h) _

theorem reserveSession (hP : Shrinks P) (h : P s) {key : String} (live cancelActive : Bool)
    (hp : P (s.setPool { s.pool with maintenanceKeys := insert key s.pool.maintenanceKeys })) :
    P (s.reserveSession key live cancelActive) := by
  simp only [PoolSystem.reserveSession]
  split
  · exact h
  split
  · exact h
  split
  · exact hp
  · rename_i r _
    split
    · apply hP.evict
      exact hP.retireLater _ r hp
    · exact hP.retireLater _ r hp

theorem reserveSweep (hP : Shrinks P) (h : P s) (key : String) (expired : Bool) :
    P (s.reserveSweep key expired) := by
  simp only [PoolSystem.reserveSweep]
  split
  · exact h
  · rename_i r _
    split
    · apply hP.evict
      exact hP.retireLater s r h
    · exact hP.retireLater s r h

end Shrinks

/-- The handler of a `start_turn` that raised. -/
def failStart (s : PoolSystem) (t : Nat) (args : AcquireArgs) (r : Nat) : Bool → PoolSystem
  | true => (s.setRuntime r (s.heap r).requestClose).setTask t (.failing args.key r)
  | false => (s.evict r).setTask t (.closing r)

/-- The last section of `acquire` for a fresh runtime. -/
def register (s : PoolSystem) (t : Nat) (args : AcquireArgs) (r : Nat) : PoolSystem :=
  let s := s.setPool (s.pool.discardStarting args.key)
  if args.key ∈ s.pool.maintenanceKeys ∨ (s.pool.runtimes.lookup args.key).isSome then
    (s.setRuntime r (s.heap r).requestClose).setTask t (.closing r)
  else
    ((s.setPool (s.pool.enter args.key r)).setRuntime r
      ((s.heap r).moveIn (s.pool.capacity ≤ s.pool.size))).setTask t (.leased r args.mode)

/-- The end of `start_turn` and what `acquire` does with it. -/
def takeTurn (s : PoolSystem) (t : Nat) (args : AcquireArgs) (r : Nat) (fresh : Bool) (now : Nat) :
    PoolSystem :=
  let owned := s.setRuntime r ((s.heap r).ownTurn t args.binding args.mode now)
  if (s.heap r).bridge.callback.isSome then owned.failStart t args r fresh
  else if fresh then owned.register t args r
  else owned.setTask t (.leased r args.mode)

/-- The beginning of `start_turn`. -/
def beginTurn (s : PoolSystem) (t : Nat) (args : AcquireArgs) (r : Nat) (fresh : Bool) (now : Nat) :
    PoolSystem :=
  if args.mode ≠ (s.heap r).currentPermissionMode then s.setTask t (.switching args r fresh)
  else s.takeTurn t args r fresh now

/-- A runtime is made and its `connect` begins. -/
def startRuntime (s : PoolSystem) (t : Nat) (args : AcquireArgs) (now : Nat) : PoolSystem :=
  (s.allocate (.create args.key args.options now)).setTask t (.connecting args s.allocated)

def enter (s : PoolSystem) (t : Nat) (args : AcquireArgs) (memory : RuntimeMemorySnapshot)
    (deferred : Bool) (now : Nat) : PoolSystem :=
  match s.pool.admission s.heap args.key args.options memory with
  | .refused _ => s.setTask t .ended
  | .reuse r =>
    let s := s.setRuntime r ((s.heap r).reserve (args.mode ≠ idlePermissionMode))
    if deferred then s.failStart t args r false else s.beginTurn t args r false now
  | .evict victim =>
    let s := s.evict victim
    (s.setPool (s.pool.addStarting args.key t args.options)).setTask t (.evicting args victim)
  | .start => (s.setPool (s.pool.addStarting args.key t args.options)).startRuntime t args now

def remap (s : PoolSystem) (r : Nat) (sessionId : String) : PoolSystem :=
  if sessionId = "" ∨ s.pool.runtimes.lookup (s.heap r).key ≠ some r then s
  else if (s.pool.runtimes.lookup sessionId).any (· ≠ r) then s.setRuntime r (s.heap r).collide
  else
    (s.setPool (s.pool.rekey (s.heap r).key sessionId r)).setRuntime r ((s.heap r).rename sessionId)

/-- The decision of `release` after `finish_turn`. -/
def settleRelease (s : PoolSystem) (t r : Nat) (keepWarm : Bool) : PoolSystem :=
  if !keepWarm || !(s.heap r).healthy || (s.heap r).retireOnIdle || s.pool.capacity < s.pool.size then
    (s.evict r).setTask t (.closing r)
  else s.setTask t .ended

/-- The unread frames of `r` with the answers that they get. -/
def peerEnvs (s : PoolSystem) (r : Nat) (unread : List UnreadFrame) : List (PeerEnv × Frame) :=
  unread.map fun u => (⟨s.pool.admitsPeer s.heap r u.memory, u.claim, u.now⟩, u.frame)

def finishRelease (s : PoolSystem) (t r : Nat) (args : ReleaseArgs) (safe reset : Bool)
    (unread : List UnreadFrame) (now : Nat) : PoolSystem :=
  let v := if reset then (s.heap r).setPermissionMode idlePermissionMode else s.heap r
  (s.setRuntime r (v.finishTurn (s.peerEnvs r unread) (args.tainted || !safe) args.keepWarm
    now)).settleRelease t r args.keepWarm

end PoolSystem

def RuntimeEvent.withAdmission (admits : Bool) : RuntimeEvent → RuntimeEvent
  | .frame env f => .frame { env with admits } f
  | e => e

namespace PoolSystem

def closeDone (s : PoolSystem) (r : Nat) : Bool := (s.heap r).closeTask = .done

def discardKey (s : PoolSystem) (t : Nat) (key : String) : PoolSystem :=
  (s.setPool (s.pool.discardStarting key)).setTask t .ended

def afterClose (s : PoolSystem) (t : Nat) : Option PoolSystem :=
  match s.tasks t with
  | .connectFailing key r | .failing key r | .finishing key r =>
    if s.closeDone r then some (s.discardKey t key) else none
  | .closing r => if s.closeDone r then some (s.setTask t .ended) else none
  | _ => none

def cancelClose (s : PoolSystem) (t : Nat) : Option PoolSystem :=
  match s.tasks t with
  | .refreshing .. | .closing _ => some (s.setTask t .ended)
  | .evicting args victim => some (s.setTask t (.finishing args.key victim))
  | .connectFailing key r => some (s.setTask t (.failing key r))
  -- the handler is left before it clears the tables
  | .failing .. => some (s.setTask t .ended)
  | _ => none

def step (s : PoolSystem) : PoolEvent → Option PoolSystem
  | .acquire args memory =>
    let victims := (s.pool.resized memory).refreshVictims s.heap memory (some args.key)
    some ((s.refresh memory (some args.key)).spawn (.refreshing args memory victims))
  | .admission t deferred now =>
    match s.tasks t with
    | .refreshing args memory victims =>
      if victims.all s.closeDone then some (s.enter t args memory deferred now) else none
    | _ => none
  | .evicted t now =>
    match s.tasks t with
    | .evicting args victim =>
      if s.closeDone victim then some (s.startRuntime t args now) else none
    | _ => none
  | .connected t now =>
    match s.tasks t with
    | .connecting args r =>
      some ((s.setRuntime r ((s.heap r).connected now)).beginTurn t args r true now)
    | _ => none
  | .connectFails t =>
    match s.tasks t with
    | .connecting args r =>
      some ((s.setRuntime r (s.heap r).poison.requestClose).setTask t
        (.connectFailing args.key r))
    | _ => none
  | .switched t now =>
    match s.tasks t with
    | .switching args r fresh =>
      let s := s.setRuntime r ((s.heap r).setPermissionMode args.mode)
      if (s.heap r).startBlocked then some (s.setTask t (.reverting args r fresh))
      else some (s.takeTurn t args r fresh now)
    | _ => none
  | .reverted t =>
    match s.tasks t with
    | .reverting args r fresh =>
      some ((s.setRuntime r ((s.heap r).setPermissionMode idlePermissionMode)).failStart t args
        r fresh)
    | _ => none
  | .startFails t =>
    match s.tasks t with
    | .switching args r fresh | .reverting args r fresh => some (s.failStart t args r fresh)
    | _ => none
  | .closed t => s.afterClose t
  | .cancel t => s.cancelClose t
  | .unbindTurn t =>
    match s.tasks t with
    | .leased r _ => some (s.setRuntime r (s.heap r).dropBinding)
    | _ => none
  | .resetTurn t =>
    match s.tasks t with
    | .leased r _ => some (s.setRuntime r ((s.heap r).setPermissionMode idlePermissionMode))
    | _ => none
  | .remap t sessionId =>
    match s.tasks t with
    | .leased r _ => some (s.remap r sessionId)
    | _ => none
  | .release t args =>
    match s.tasks t with
    | .leased r mode =>
      some ((s.setRuntime r (s.heap r).dropBinding).setTask t (.releasing r mode args))
    | _ => none
  | .quiesced t safe reset unread now =>
    match s.tasks t with
    | .releasing r _ args =>
      if !safe || reset || (s.heap r).currentPermissionMode = idlePermissionMode then
        some (s.finishRelease t r args safe reset unread now)
      else none
    | _ => none
  | .releaseFails t =>
    match s.tasks t with
    | .releasing r _ _ => some ((s.evict r).setTask t (.closing r))
    | _ => none
  | .evolve r e memory =>
    if r < s.allocated then
      ((s.heap r).evolve (e.withAdmission (s.pool.admitsPeer s.heap r memory))).map
        (s.setRuntime r)
    else none
  | .refreshCapacity memory preserve => some (s.refresh memory preserve)
  | .configure capacity =>
    if 1 ≤ capacity ∧ capacity ≤ maxSessionRuntimePoolCapacity then some (s.configure capacity)
    else some s
  | .recycleAll => some s.recycleAll
  | .reserveSession key live cancelActive => some (s.reserveSession key live cancelActive)
  | .reserveSweep key expired =>
    if key ∈ s.pool.maintenanceKeys then some (s.reserveSweep key expired) else none
  | .releaseMaintenance key =>
    some (s.setPool { s.pool with maintenanceKeys := s.pool.maintenanceKeys.erase key })
  | .retire r =>
    if (s.heap r).retireTask = .scheduled then
      some (s.setRuntime r ((s.heap r).requestClose.setRetireTask .closing))
    else none
  | .retired r =>
    if (s.heap r).retireTask = .closing ∧ s.closeDone r then
      some ((s.setRuntime r ((s.heap r).setRetireTask .done)).evict r)
    else none

/-- What each section needs and what it leaves -/
inductive Moves (s : PoolSystem) : PoolEvent → PoolSystem → Prop
  | acquire (args memory) :
      Moves s (.acquire args memory) ((s.refresh memory (some args.key)).spawn
        (.refreshing args memory ((s.pool.resized memory).refreshVictims s.heap memory (some args.key))))
  | admission (t deferred now) {args memory victims} (hp : s.tasks t = .refreshing args memory victims)
      (hclosed : victims.all s.closeDone = true) :
      Moves s (.admission t deferred now) (s.enter t args memory deferred now)
  | evicted (t now) {args victim} (hp : s.tasks t = .evicting args victim)
      (hclosed : s.closeDone victim = true) : Moves s (.evicted t now) (s.startRuntime t args now)
  | connected (t now) {args r} (hp : s.tasks t = .connecting args r) :
      Moves s (.connected t now) ((s.setRuntime r ((s.heap r).connected now)).beginTurn t args r true now)
  | connectFails (t) {args r} (hp : s.tasks t = .connecting args r) :
      Moves s (.connectFails t)
        ((s.setRuntime r (s.heap r).poison.requestClose).setTask t (.connectFailing args.key r))
  | blocked (t now) {args r fresh} (hp : s.tasks t = .switching args r fresh)
      (hb : ((s.setRuntime r ((s.heap r).setPermissionMode args.mode)).heap r).startBlocked = true) :
      Moves s (.switched t now)
        ((s.setRuntime r ((s.heap r).setPermissionMode args.mode)).setTask t (.reverting args r fresh))
  | switched (t now) {args r fresh} (hp : s.tasks t = .switching args r fresh)
      (hb : ¬ ((s.setRuntime r ((s.heap r).setPermissionMode args.mode)).heap r).startBlocked = true) :
      Moves s (.switched t now)
        ((s.setRuntime r ((s.heap r).setPermissionMode args.mode)).takeTurn t args r fresh now)
  | reverted (t) {args r fresh} (hp : s.tasks t = .reverting args r fresh) :
      Moves s (.reverted t)
        ((s.setRuntime r ((s.heap r).setPermissionMode idlePermissionMode)).failStart t args r fresh)
  | startFails (t) {args r fresh} (hp : s.tasks t = .switching args r fresh ∨ s.tasks t = .reverting args r fresh) :
      Moves s (.startFails t) (s.failStart t args r fresh)
  | discarded (t) {key} (hk : (s.tasks t).held = some key) : Moves s (.closed t) (s.discardKey t key)
  | closed (t) {r} (hp : s.tasks t = .closing r) : Moves s (.closed t) (s.setTask t .ended)
  | aborted (t) (hn : s.tasks t ≠ .new) (hk : (s.tasks t).held = none) :
      Moves s (.cancel t) (s.setTask t .ended)
  | cancelEviction (t) {args victim} (hp : s.tasks t = .evicting args victim) :
      Moves s (.cancel t) (s.setTask t (.finishing args.key victim))
  | cancelConnect (t) {key r} (hp : s.tasks t = .connectFailing key r) :
      Moves s (.cancel t) (s.setTask t (.failing key r))
  | cancelFailing (t) {key r} (hp : s.tasks t = .failing key r) : Moves s (.cancel t) (s.setTask t .ended)
  | unbindTurn (t) {r mode} (hp : s.tasks t = .leased r mode) :
      Moves s (.unbindTurn t) (s.setRuntime r (s.heap r).dropBinding)
  | resetTurn (t) {r mode} (hp : s.tasks t = .leased r mode) :
      Moves s (.resetTurn t) (s.setRuntime r ((s.heap r).setPermissionMode idlePermissionMode))
  | remap (t sessionId) {r mode} (hp : s.tasks t = .leased r mode) :
      Moves s (.remap t sessionId) (s.remap r sessionId)
  | release (t args) {r mode} (hp : s.tasks t = .leased r mode) :
      Moves s (.release t args) ((s.setRuntime r (s.heap r).dropBinding).setTask t (.releasing r mode args))
  | quiesced (t safe reset unread now) {r mode args} (hp : s.tasks t = .releasing r mode args)
      (hlast : (!safe || reset || decide ((s.heap r).currentPermissionMode = idlePermissionMode)) = true) :
      Moves s (.quiesced t safe reset unread now) (s.finishRelease t r args safe reset unread now)
  | releaseFails (t) {r mode args} (hp : s.tasks t = .releasing r mode args) : Moves s (.releaseFails t) ((s.evict r).setTask t (.closing r))
  | evolve (r e memory) {v} (hr : r < s.allocated)
      (hv : (s.heap r).evolve (e.withAdmission (s.pool.admitsPeer s.heap r memory)) = some v) :
      Moves s (.evolve r e memory) (s.setRuntime r v)
  | refreshCapacity (memory preserve) :
      Moves s (.refreshCapacity memory preserve) (s.refresh memory preserve)
  | configure (capacity) (hlimits : 1 ≤ capacity ∧ capacity ≤ maxSessionRuntimePoolCapacity) :
      Moves s (.configure capacity) (s.configure capacity)
  | unconfigured (capacity) (hlimits : ¬ (1 ≤ capacity ∧ capacity ≤ maxSessionRuntimePoolCapacity)) :
      Moves s (.configure capacity) s
  | recycleAll : Moves s .recycleAll s.recycleAll
  | reserveSession (key live cancelActive) :
      Moves s (.reserveSession key live cancelActive) (s.reserveSession key live cancelActive)
  | reserveSweep (key expired) (hkey : key ∈ s.pool.maintenanceKeys) :
      Moves s (.reserveSweep key expired) (s.reserveSweep key expired)
  | releaseMaintenance (key) : Moves s (.releaseMaintenance key)
      (s.setPool { s.pool with maintenanceKeys := s.pool.maintenanceKeys.erase key })
  | retire (r) (hr : (s.heap r).retireTask = .scheduled) :
      Moves s (.retire r) (s.setRuntime r ((s.heap r).requestClose.setRetireTask .closing))
  | retired (r) (hr : (s.heap r).retireTask = .closing ∧ s.closeDone r = true) :
      Moves s (.retired r) ((s.setRuntime r ((s.heap r).setRetireTask .done)).evict r)

theorem ne_new_of_held {s : PoolSystem} {t : Nat} {key : String} (hk : (s.tasks t).held = some key) :
    s.tasks t ≠ .new := by
  intro hn
  rw [hn] at hk
  cases hk

theorem step_moves {s s' : PoolSystem} {e : PoolEvent} (hs : s.step e = some s') : s.Moves e s' := by
  cases e with
  | acquire | refreshCapacity | recycleAll | reserveSession | releaseMaintenance =>
    cases hs
    constructor
  | closed t =>
    simp only [step, afterClose] at hs
    split at hs
    · split at hs <;> cases hs
      exact .discarded t (by simp [*, TaskPhase.held])
    · split at hs <;> cases hs
      exact .discarded t (by simp [*, TaskPhase.held])
    · split at hs <;> cases hs
      exact .discarded t (by simp [*, TaskPhase.held])
    · split at hs <;> cases hs
      exact .closed t ‹_›
    · cases hs
  | cancel t =>
    simp only [step, cancelClose] at hs
    split at hs <;> cases hs
    · exact .aborted t (by simp [*]) (by simp [*, TaskPhase.held])
    · exact .aborted t (by simp [*]) (by simp [*, TaskPhase.held])
    · exact .cancelEviction t ‹_›
    · exact .cancelConnect t ‹_›
    · exact .cancelFailing t ‹_›
  | evolve r e memory =>
    simp only [step] at hs
    split at hs
    · rename_i hr
      obtain ⟨v, hv, rfl⟩ := Option.map_eq_some_iff.mp hs
      exact .evolve r e memory hr hv
    · cases hs
  | startFails t =>
    simp only [step] at hs
    split at hs <;> cases hs
    · exact .startFails t (.inl ‹_›)
    · exact .startFails t (.inr ‹_›)
  | admission | evicted | switched | quiesced =>
    simp only [step] at hs
    split at hs
    · split at hs <;> cases hs <;> constructor <;> assumption
    · cases hs
  | _ =>
    simp only [step] at hs
    split at hs <;> cases hs <;> constructor <;> assumption

end PoolSystem

end PrivaCloud.AgentRunner
