import PrivaCloud.ControlPanel.Accounts
import PrivaCloud.Framework.Dict
import PrivaCloud.Framework.Processes

/-!
# The reconcile engine

`ReconcileEngine`: the passes of the poll and the pushes for single accounts fetch a snapshot of the
configurations, wait for the lock, and arm and tear down workers to match it. Within a fetch every call of the
data plane is a section of its own.
-/

namespace PrivaCloud.ChannelConnector

open Framework ControlPanel

/-- A row of `feishu_configs`, with the secret that `get_secret` decrypts for it. -/
structure FeishuConfig where
  accountId : String
  effectiveEnabled : Bool
  desiredDigest : Option String
  appSecret : Text := []
  deriving DecidableEq

/-- All accounts, or the one that was pushed. -/
inductive PassScope
  | everything
  | only (accountId : String)
  deriving DecidableEq

def PassScope.covers : PassScope → String → Bool
  | .everything, _ => true
  | .only accountId, aid => aid = accountId

/-- The configurations that are effective and whose accounts are active, as a pass has fetched them; the
passes are numbered in the order of their fetches. -/
structure Snapshot where
  scope : PassScope
  fetched : Nat
  configs : List FeishuConfig
  deriving DecidableEq

namespace Snapshot

variable (snap : Snapshot)

def covers (aid : String) : Bool := snap.scope.covers aid

/-- The digest with which an account is to be armed, if it is. -/
def target (aid : String) : Option (Option String) :=
  (snap.configs.find? (·.accountId = aid)).map FeishuConfig.desiredDigest

def disables (aid : String) : Bool := snap.covers aid && (snap.target aid).isNone

end Snapshot

/-- An armed worker, and the number of the pass that has armed it. -/
structure Worker where
  id : Nat
  armedBy : Nat
  deriving DecidableEq

/-- A WebSocket that is up; it is orphaned if it outlives the stop of its worker. -/
structure Socket where
  worker : Nat
  account : String
  orphaned : Bool := false

structure EngineWorld where
  configs : Table FeishuConfig.accountId
  accounts : Accounts
  workers : List (String × Worker) := []
  digests : List (String × Option String) := []
  locked : Bool := false
  sockets : List Socket := []
  /-- how many workers have been started, and how many passes have fetched -/
  started : Nat := 0
  fetches : Nat := 0

namespace EngineWorld

variable (s : EngineWorld)

def worker (aid : String) : Option Worker := getValue s.workers aid

/-- `self._digests.get(aid)` -/
def digest (aid : String) : Option String := (getValue s.digests aid).getD none

def active (aid : String) : Bool := (s.accounts.find? aid).any (·.status = .active)

def vanished (snap : Snapshot) : List String := (s.workers.map Prod.fst).filter snap.disables

def pop (aid : String) : EngineWorld :=
  { s with workers := s.workers.filter (·.1 ≠ aid), digests := s.digests.filter (·.1 ≠ aid) }

/-- The end of `worker.stop()`, which may leave the socket up. -/
def close (worker : Nat) (down : Bool) : EngineWorld :=
  { s with
    sockets :=
      if down then s.sockets.filter (·.worker ≠ worker)
      else s.sockets.map fun socket => if socket.worker = worker then { socket with orphaned := true } else socket }

/-- `worker.start()` has succeeded. -/
def arm (snap : Snapshot) (cfg : FeishuConfig) : EngineWorld :=
  { s with
    workers := assign s.workers cfg.accountId ⟨s.started, snap.fetched⟩
    digests := assign s.digests cfg.accountId cfg.desiredDigest
    sockets := s.sockets ++ [{ worker := s.started, account := cfg.accountId }]
    started := s.started + 1 }

end EngineWorld

/-- What a pass that holds the lock has still to do. -/
structure Holding where
  snap : Snapshot
  stops : List String
  arms : List FeishuConfig
  deriving DecidableEq

/-- Where a pass is: before the answer of what it awaits. -/
inductive PassCall
  | fetching (scope : PassScope)
  | gating (scope : PassScope) (fetched : Nat) (configs : List FeishuConfig) (remaining active : List String)
  | waiting (snap : Snapshot)
  | applying (h : Holding)
  | stopping (h : Holding) (worker : Worker) (accountId : String) (rearm : Option FeishuConfig)
  | securing (h : Holding) (cfg : FeishuConfig)
  | identifying (h : Holding) (cfg : FeishuConfig)
  | starting (h : Holding) (cfg : FeishuConfig)
  | finished (snap : Snapshot)
  | raised
  deriving DecidableEq

inductive EngineReply
  | ok
  | failed
  deriving DecidableEq

namespace PassCall

/-- The next account whose status is asked for, or the snapshot. -/
def gate (scope : PassScope) (fetched : Nat) (configs : List FeishuConfig) (active : List String) :
    List String → PassCall
  | [] => .waiting ⟨scope, fetched, configs.filter fun c => c.effectiveEnabled && active.contains c.accountId⟩
  | remaining => .gating scope fetched configs remaining active

/-- `list_effective` for all accounts, `get` for one. -/
def fetch (s : EngineWorld) : PassScope → List FeishuConfig
  | .everything => s.configs.rows.filter FeishuConfig.effectiveEnabled
  | .only accountId => (s.configs.find? accountId).toList

/-- The accounts of `_active_account_ids`. -/
def asked (configs : List FeishuConfig) : PassScope → List String
  | .everything => configs.map FeishuConfig.accountId
  | .only accountId => [accountId]

/-- One account of the pass, up to the next await. -/
def apply (s : EngineWorld) (h : Holding) : EngineWorld × PassCall :=
  match h.stops, h.arms with
  | aid :: stops, _ =>
    match s.worker aid with
    | none => (s, .applying { h with stops := stops })
    | some worker => (s.pop aid, .stopping { h with stops := stops } worker aid none)
  | [], cfg :: arms =>
    match s.worker cfg.accountId with
    | none => (s, .securing { h with arms := arms } cfg)
    | some worker =>
      if cfg.desiredDigest ≠ s.digest cfg.accountId then
        (s.pop cfg.accountId, .stopping { h with arms := arms } worker cfg.accountId (some cfg))
      else (s, .applying { h with arms := arms })
  | [], [] => ({ s with locked := false }, .finished h.snap)

/-- An error ends the pass, which gives the lock back. -/
def raise (s : EngineWorld) : EngineWorld × PassCall := ({ s with locked := false }, .raised)

def act (s : EngineWorld) (call : PassCall) (reply : EngineReply) : Option (EngineWorld × PassCall) :=
  match call, reply with
  | .fetching _, .failed => some (s, .raised)
  | .fetching scope, .ok =>
    let configs := fetch s scope
    some ({ s with fetches := s.fetches + 1 }, gate scope s.fetches configs [] (asked configs scope))
  | .gating .., .failed => some (s, .raised)
  | .gating scope fetched configs remaining active, .ok =>
    match remaining with
    | [] => none
    | aid :: rest => some (s, gate scope fetched configs (if s.active aid then active ++ [aid] else active) rest)
  | .waiting snap, _ =>
    if s.locked then none
    else some ({ s with locked := true }, .applying ⟨snap, s.vanished snap, snap.configs⟩)
  | .applying h, _ => some (apply s h)
  | .stopping h worker _ rearm, _ =>
    some (s.close worker.id (reply = .ok), match rearm with
      | none => .applying h
      | some cfg => .securing h cfg)
  | .securing .., .failed => some (raise s)
  | .securing h cfg, .ok =>
    if (s.configs.find? cfg.accountId).any (·.appSecret ≠ []) then some (s, .identifying h cfg)
    else some (s, .applying h)
  | .identifying .., .failed => some (raise s)
  | .identifying h cfg, .ok => some (s, .starting h cfg)
  | .starting h _, .failed => some (s, .applying h)
  | .starting h cfg, .ok => some (s.arm h.snap cfg, .applying h)
  | .finished _, _ | .raised, _ => none

end PassCall

/-- What happens beside the passes: other configurations, and sockets that break. -/
inductive EngineOutside
  | configure (configs : Table FeishuConfig.accountId) (accounts : Accounts)
  | breaks (worker : Nat)

def engineProgram : Program EngineWorld PassCall PassScope EngineReply EngineOutside where
  enter := PassCall.fetching
  act := PassCall.act
  outside := fun s event =>
    match event with
    | .configure configs accounts => some { s with configs := configs, accounts := accounts }
    | .breaks worker => some { s with sockets := s.sockets.filter (·.worker ≠ worker) }

end PrivaCloud.ChannelConnector
