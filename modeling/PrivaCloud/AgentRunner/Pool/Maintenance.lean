import PrivaCloud.AgentRunner.Pool.Retirement

/-!
# The pool with its maintenance

The calls of `reserve_session` and the `SessionMaintenanceLease` that each returns, interleaved with the
pool at their awaits. The loop of `reserve_session(cancel_active=True)` enters its first turn without an
await. A close that a caller waits for has had its first section before the caller can be cancelled.
-/

namespace PrivaCloud.AgentRunner

open Framework

/-- Where a call of `reserve_session` is suspended. -/
inductive MaintenancePhase
  | new
  /-- awaiting `close_now.close()` -/
  | closingNow (key : String) (r : Nat) (cancelActive : Bool)
  /-- asleep in the loop of `cancel_active` -/
  | sweeping (key : String)
  /-- awaiting `victim.close()` -/
  | closingVictim (key : String) (r : Nat)
  /-- the lease is returned and not released -/
  | held (key : String)
  /-- `release` was called, `_release_maintenance` is still to run -/
  | releasing (key : String)
  /-- `None` was returned, the call raised or the lease is released -/
  | ended

namespace MaintenancePhase

/-- The key that the call keeps in `_maintenance_keys`. -/
def active : MaintenancePhase → Option String
  | .closingNow key _ _ | .sweeping key | .closingVictim key _ | .held key | .releasing key => some key
  | .new | .ended => none

/-- The key that the call has looked up in the pool for the last time. -/
def past : MaintenancePhase → Option String
  | .closingNow key _ false | .closingVictim key _ | .held key | .releasing key => some key
  | .closingNow _ _ true | .new | .sweeping _ | .ended => none

/-- The key of the `SessionMaintenanceLease` that the call has returned. -/
def lease : MaintenancePhase → Option String
  | .held key | .releasing key => some key
  | .new | .closingNow .. | .sweeping _ | .closingVictim .. | .ended => none

end MaintenancePhase

structure MaintenanceSystem where
  pool : PoolSystem
  callers : Nat → MaintenancePhase := fun _ => .new
  called : Nat := 0

inductive MaintenanceEvent
  /-- a section of the pool, but not one of `reserve_session` -/
  | pool (e : PoolEvent)
  /-- a new call; `live` says whether the session has a live record, `expired` whether the deadline
  has passed at the first turn of the loop -/
  | reserve (key : String) (live cancelActive expired : Bool)
  /-- a turn of the loop -/
  | sweep (c : Nat) (expired : Bool)
  /-- the awaited close is done -/
  | closed (c : Nat) (expired : Bool)
  /-- the call is cancelled, or its close raises -/
  | cancel (c : Nat)
  | release (c : Nat)
  /-- `_release_maintenance` -/
  | released (c : Nat)

namespace MaintenanceSystem

def init (capacity : Option Nat) (memory : RuntimeMemorySnapshot) : MaintenanceSystem :=
  { pool := .init capacity memory }

def setPool (s : MaintenanceSystem) (pool : PoolSystem) : MaintenanceSystem := { s with pool := pool }

def setCaller (s : MaintenanceSystem) (c : Nat) (phase : MaintenancePhase) : MaintenanceSystem :=
  { s with callers := Function.update s.callers c phase }

/-- One turn of the loop of `cancel_active`. -/
def look (s : MaintenanceSystem) (c : Nat) (key : String) (expired : Bool) : MaintenanceSystem :=
  let current := s.pool.pool.runtimes.lookup key
  let clear := key ∉ s.pool.pool.starting && current.all fun r => (s.pool.heap r).expendable
  (s.setPool (s.pool.reserveSweep key expired)).setCaller c
    (if clear || expired then
      match current with
      | some r => .closingVictim key r
      | none => .held key
    else .sweeping key)

/-- `busy` of `reserve_session` -/
def busy (s : MaintenanceSystem) (key : String) (live : Bool) : Bool :=
  key ∈ s.pool.pool.starting || live ||
    (s.pool.pool.runtimes.lookup key).any fun r => !(s.pool.heap r).evictable

/-- `reserve_session` up to its first await. -/
def reserve (s : MaintenanceSystem) (c : Nat) (key : String) (live cancelActive expired : Bool) :
    MaintenanceSystem :=
  if key ∈ s.pool.pool.maintenanceKeys ∨ s.busy key live = true ∧ cancelActive = false then
    s.setCaller c .ended
  else
    let reserved := s.setPool (s.pool.reserveSession key live cancelActive)
    match (s.pool.pool.runtimes.lookup key).filter fun r => (s.pool.heap r).evictable with
    | some r => reserved.setCaller c (.closingNow key r cancelActive)
    | none => if cancelActive then reserved.look c key expired else reserved.setCaller c (.held key)

def releaseMaintenance (s : MaintenanceSystem) (key : String) : MaintenanceSystem :=
  s.setPool (s.pool.setPool
    { s.pool.pool with maintenanceKeys := s.pool.pool.maintenanceKeys.erase key })

def plain : PoolEvent → Bool
  | .reserveSession .. | .reserveSweep .. | .releaseMaintenance _ => false
  | _ => true

def step (s : MaintenanceSystem) : MaintenanceEvent → Option MaintenanceSystem
  | .pool e => if plain e then (s.pool.step e).map s.setPool else none
  | .reserve key live cancelActive expired =>
    some (({ s with called := s.called + 1 }).reserve s.called key live cancelActive expired)
  | .sweep c expired =>
    match s.callers c with
    | .sweeping key => some (s.look c key expired)
    | _ => none
  | .closed c expired =>
    match s.callers c with
    | .closingNow key r cancelActive =>
      if s.pool.closeDone r then
        some (if cancelActive then s.look c key expired else s.setCaller c (.held key))
      else none
    | .closingVictim key r => if s.pool.closeDone r then some (s.setCaller c (.held key)) else none
    | _ => none
  | .cancel c =>
    match s.callers c with
    | .closingNow key r _ | .closingVictim key r =>
      if (s.pool.heap r).closeBegun then some ((s.releaseMaintenance key).setCaller c .ended) else none
    | .sweeping key => some ((s.releaseMaintenance key).setCaller c .ended)
    | _ => none
  | .release c =>
    match s.callers c with
    | .held key => some (s.setCaller c (.releasing key))
    | _ => none
  | .released c =>
    match s.callers c with
    | .releasing key => some ((s.releaseMaintenance key).setCaller c .ended)
    | _ => none

end MaintenanceSystem

end PrivaCloud.AgentRunner
