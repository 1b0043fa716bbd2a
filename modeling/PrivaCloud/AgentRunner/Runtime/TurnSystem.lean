import PrivaCloud.AgentRunner.Runtime.SessionRuntime

/-!
# The turns of one runtime

The calls of `start_turn` on one runtime, the `quiesce_turn_security` and `finish_turn` of those that got the
turn, `close` and the lifetime receiver, interleaved at their awaits. The queue of a turn has the number of its
call. A turn is finished once, by its lease.
-/

namespace PrivaCloud.AgentRunner

open Framework

/-- The arguments of `finish_turn`. -/
structure FinishArgs where
  tainted : Bool
  keepWarm : Bool

/-- What the last section of `finish_turn` finds: the unread frames and the time. -/
structure TurnEnd where
  unread : List (PeerEnv × Frame) := []
  now : Nat := 0

/-- Where a call is suspended. A quiesce is called on its own or by `finish_turn`. -/
inductive TurnPhase
  | new
  /-- in `start_turn`, awaiting `set_permission_mode(mode)` -/
  | switching (mode : PermissionMode) (binding : RunBinding)
  /-- in `start_turn`, awaiting `set_permission_mode(IDLE_PERMISSION_MODE)` after a lost race -/
  | reverting
  | owned
  /-- in `quiesce_turn_security`, awaiting `bridge.unbind` -/
  | unbinding (finish : Option FinishArgs)
  /-- in `quiesce_turn_security`, awaiting `set_permission_mode(IDLE_PERMISSION_MODE)` -/
  | resetting (safe : Bool) (finish : Option FinishArgs)
  | ended

namespace TurnPhase

/-- `start_turn` returned and the turn is not finished. -/
def owner : TurnPhase → Bool
  | .owned | .unbinding _ | .resetting .. => true
  | .new | .switching .. | .reverting | .ended => false

def quiescing : TurnPhase → Bool
  | .unbinding _ | .resetting .. => true
  | .new | .switching .. | .reverting | .owned | .ended => false

end TurnPhase

structure TurnSystem where
  runtime : SessionRuntime
  turns : Nat → TurnPhase := fun _ => .new

inductive TurnEvent
  /-- `deferred` says whether deferred frames are left -/
  | start (t : Nat) (mode : PermissionMode) (binding : RunBinding) (deferred : Bool) (now : Nat)
  | switched (t : Nat) (now : Nat)
  | reverted (t : Nat)
  /-- a control request of `start_turn` raises or the call is cancelled -/
  | startFails (t : Nat)
  | quiesce (t : Nat)
  | finish (t : Nat) (args : FinishArgs) (ending : TurnEnd)
  | unbound (t : Nat) (timedOut : Bool) (ending : TurnEnd)
  | reset (t : Nat) (ending : TurnEnd)
  | resetFails (t : Nat) (ending : TurnEnd)
  /-- a quiesce is cancelled -/
  | quiesceCancelled (t : Nat)
  | close
  | evolve (e : RuntimeEvent)

namespace TurnSystem

/-- A runtime has no other caller until its `connect` returns, at the time given, or raises after
it has called `close`. -/
def init (key : String) (options : RuntimeOptions) (created : Nat) (connected : Option Nat) : TurnSystem :=
  { runtime :=
      match connected with
      | some now => (SessionRuntime.create key options created).connected now
      | none => (SessionRuntime.create key options created).poison.requestClose }

def setRuntime (s : TurnSystem) (r : SessionRuntime) : TurnSystem := { s with runtime := r }

def setTurn (s : TurnSystem) (t : Nat) (phase : TurnPhase) : TurnSystem :=
  { s with turns := Function.update s.turns t phase }

/-- The end of `start_turn`; a bound bridge makes it raise. -/
def own (s : TurnSystem) (t : Nat) (mode : PermissionMode) (binding : RunBinding) (now : Nat) : TurnSystem :=
  (s.setRuntime (s.runtime.ownTurn t binding mode now)).setTurn t
    (if s.runtime.bridge.callback.isNone then .owned else .ended)

/-- `quiesce_turn_security` returns, to the turn or to `finish_turn`. -/
def concludeQuiesce (s : TurnSystem) (t : Nat) (safe : Bool) (finish : Option FinishArgs)
    (ending : TurnEnd) : TurnSystem :=
  match finish with
  | none => s.setTurn t .owned
  | some args =>
    (s.setRuntime (s.runtime.finishTurn ending.unread (args.tainted || !safe) args.keepWarm
      ending.now)).setTurn t .ended

/-- `quiesce_turn_security` after the unbind. -/
def leaveMode (s : TurnSystem) (t : Nat) (safe : Bool) (finish : Option FinishArgs)
    (ending : TurnEnd) : TurnSystem :=
  if s.runtime.currentPermissionMode ≠ idlePermissionMode then s.setTurn t (.resetting safe finish)
  else s.concludeQuiesce t safe finish ending

def beginQuiesce (s : TurnSystem) (t : Nat) (finish : Option FinishArgs) (ending : TurnEnd) : TurnSystem :=
  let dropped := s.setRuntime s.runtime.dropBinding
  match s.runtime.unbindResult with
  | none => dropped.setTurn t (.unbinding finish)
  | some safe => dropped.leaveMode t safe finish ending

def step (s : TurnSystem) : TurnEvent → Option TurnSystem
  | .start t mode binding deferred now =>
    match s.turns t with
    | .new =>
      if s.runtime.startBlocked || deferred then some (s.setTurn t .ended)
      else if mode ≠ s.runtime.currentPermissionMode then
        some (s.setTurn t (.switching mode binding))
      else some (s.own t mode binding now)
    | _ => none
  | .switched t now =>
    match s.turns t with
    | .switching mode binding =>
      let s := s.setRuntime (s.runtime.setPermissionMode mode)
      if s.runtime.startBlocked then some (s.setTurn t .reverting)
      else some (s.own t mode binding now)
    | _ => none
  | .reverted t =>
    match s.turns t with
    | .reverting =>
      some ((s.setRuntime (s.runtime.setPermissionMode idlePermissionMode)).setTurn t .ended)
    | _ => none
  | .startFails t =>
    match s.turns t with
    | .switching .. | .reverting => some (s.setTurn t .ended)
    | _ => none
  | .quiesce t =>
    match s.turns t with
    | .owned => some (s.beginQuiesce t none {})
    | _ => none
  | .finish t args ending =>
    match s.turns t with
    | .owned => some (s.beginQuiesce t (some args) ending)
    | _ => none
  | .unbound t timedOut ending =>
    match s.turns t with
    | .unbinding finish =>
      if s.runtime.bridge.inflightZero || timedOut then
        some (s.leaveMode t s.runtime.bridge.inflightZero finish ending)
      else none
    | _ => none
  | .reset t ending =>
    match s.turns t with
    | .resetting safe finish =>
      some ((s.setRuntime (s.runtime.setPermissionMode idlePermissionMode)).concludeQuiesce t
        safe finish ending)
    | _ => none
  | .resetFails t ending =>
    match s.turns t with
    | .resetting _ finish => some (s.concludeQuiesce t false finish ending)
    | _ => none
  | .quiesceCancelled t =>
    match s.turns t with
    -- the run still releases its lease after a cancelled quiesce of its own
    | .unbinding none | .resetting _ none => some (s.setTurn t .owned)
    | .unbinding (some _) | .resetting _ (some _) => some (s.setTurn t .ended)
    | _ => none
  | .close => some (s.setRuntime s.runtime.requestClose)
  | .evolve e => (s.runtime.evolve e).map s.setRuntime

end TurnSystem

end PrivaCloud.AgentRunner
