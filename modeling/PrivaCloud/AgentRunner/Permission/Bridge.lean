import PrivaCloud.Framework.Run
import PrivaCloud.AgentRunner.Permission.Coordinator

/-!
# The permission bridge

`session_runtime_pool.PermissionBridge` with the callbacks that pass through it; a section under its lock
is one step. A tool callback is admitted by the bridge, then answered by the callback of the run it was
admitted under, at once or through the coordinator of that run.
-/

namespace PrivaCloud.AgentRunner

open Framework

structure ToolCall (Input : Type) where
  name : String
  input : Input
  decisionReason : String := ""

/-- The arguments of `_make_unified_can_use_tool` and whether the run has a coordinator. A run is
named by a number, and so is its coordinator. -/
structure RunBinding where
  run : Nat
  effectiveMode : PermissionMode
  enableFeedback : Bool
  hasCoordinator : Bool
  deriving DecidableEq

/-- What the callback of a run does first. -/
inductive Consult (Input : Type)
  | answer (result : PermissionResult Input)
  | request

/-- `_make_unified_can_use_tool` up to the request. -/
def unifiedCanUseTool {Input : Type} (b : RunBinding) (tool : ToolCall Input) : Consult Input :=
  if tool.name = "AskUserQuestion" ∨ b.effectiveMode ≠ .bypassPermissions then
    if b.enableFeedback then .request else .answer (.deny "permission feedback disabled")
  else if tool.decisionReason ≠ "" then
    if b.enableFeedback then .request
    else .answer (.deny ("需要用户确认但当前通道无法交互,已拒绝:" ++ tool.decisionReason))
  else .answer (.allow none)

inductive CallbackPhase (Input : Type)
  | idle
  /-- admitted, the callback of the run is about to start -/
  | admitted
  /-- awaiting the put of `permission_request` -/
  | announcing (coordinator : Nat) (requestId : String)
  /-- awaiting the future -/
  | waiting (coordinator : Nat) (requestId : String)
  /-- awaiting the put of `permission_timeout` -/
  | expiring (coordinator : Nat) (requestId : String)
  /-- returned, with the run whose callback or coordinator gave the result -/
  | returned (result : PermissionResult Input) (answeredBy : Option Nat)
  | raised

structure Callback (Input : Type) where
  phase : CallbackPhase Input := .idle
  /-- The binding that the bridge handed out at admission, with its generation. -/
  admission : Option (Nat × RunBinding) := none
  tool : Option (ToolCall Input) := none

/-- The callback is between its admission and the end of `__call__`. -/
def Callback.executing {Input : Type} (c : Callback Input) : Bool :=
  match c.phase with
  | .admitted | .announcing .. | .waiting .. | .expiring .. => true
  | .idle | .returned .. | .raised => false

def Callback.moveTo {Input : Type} (c : Callback Input) (phase : CallbackPhase Input) : Callback Input :=
  { c with phase := phase }

structure PermissionBridge where
  generation : Nat := 0
  callback : Option RunBinding := none
  coordinator : Option Nat := none
  inflight : Nat := 0
  inflightZero : Bool := true
  deriving DecidableEq

inductive UnbindState
  | idle
  | draining (generation : Nat) (coordinator : Option Nat)
  | returned (generation : Nat) (result : Bool)
  | cancelled
  deriving DecidableEq

namespace PermissionBridge

/-- `bind`; a bridge that is already bound raises and is left alone. -/
def bind (b : PermissionBridge) (binding : RunBinding) : PermissionBridge :=
  match b.callback with
  | some _ => b
  | none =>
    { b with
      generation := b.generation + 1
      callback := some binding
      coordinator := if binding.hasCoordinator then some binding.run else none }

def enter (b : PermissionBridge) : PermissionBridge :=
  { b with inflight := b.inflight + 1, inflightZero := false }

/-- The `finally` block of `__call__`. -/
def leave (b : PermissionBridge) : PermissionBridge :=
  { b with
    inflight := b.inflight - 1
    inflightZero := if b.inflight - 1 = 0 then true else b.inflightZero }

def unbound (b : PermissionBridge) : PermissionBridge :=
  { b with callback := none, coordinator := none }

end PermissionBridge

/-- One bridge with its callbacks, the coordinators of all runs and the calls of `unbind`. -/
structure PermissionSystem (Input : Type) where
  bridge : PermissionBridge := {}
  coordinators : Nat → PermissionCoordinator Input := fun _ => {}
  calls : Nat → Callback Input := fun _ => {}
  unbinds : Nat → UnbindState := fun _ => .idle

inductive PermissionEvent (Input : Type)
  | bind (binding : RunBinding)
  | call (c : Nat) (tool : ToolCall Input)
  | consult (c : Nat) (requestId : String)
  | announced (c : Nat)
  | resume (c : Nat)
  | expire (c : Nat)
  | expireSent (c : Nat)
  /-- the callback raises or is cancelled where it is suspended -/
  | fail (c : Nat)
  | resolve (coordinator : Nat) (requestId : String) (decision : Decision) (message : String)
      (updatedInput : Option Input)
  | cancelAll (coordinator : Nat)
  /-- `unbind(generation)` up to its first await; `timedOut` is `remaining <= 0` -/
  | unbind (u : Nat) (generation : Nat) (timedOut : Bool)
  | unbindWake (u : Nat) (timedOut : Bool)
  | unbindCancel (u : Nat)

namespace PermissionSystem

variable {Input : Type}

def init : PermissionSystem Input := {}

def setCall (s : PermissionSystem Input) (c : Nat) (call : Callback Input) : PermissionSystem Input :=
  { s with calls := Function.update s.calls c call }

def setCoordinator (s : PermissionSystem Input) (k : Nat) (coordinator : PermissionCoordinator Input) :
    PermissionSystem Input :=
  { s with coordinators := Function.update s.coordinators k coordinator }

def setUnbind (s : PermissionSystem Input) (u : Nat) (state : UnbindState) : PermissionSystem Input :=
  { s with unbinds := Function.update s.unbinds u state }

/-- `__call__` up to the admission. -/
def admitCall (s : PermissionSystem Input) (c : Nat) (tool : ToolCall Input) : PermissionSystem Input :=
  match s.bridge.callback with
  | none => s.setCall c
      { phase := .returned (.deny "No active user run is available to approve this tool call") none
        tool := some tool }
  | some binding =>
    { s.setCall c
        { phase := .admitted, admission := some (s.bridge.generation, binding)
          tool := some tool } with
      bridge := s.bridge.enter }

/-- An executing callback leaves `__call__`. -/
def finishCall (s : PermissionSystem Input) (c : Nat) (phase : CallbackPhase Input) : PermissionSystem Input :=
  { s.setCall c ((s.calls c).moveTo phase) with bridge := s.bridge.leave }

/-- The result of the future as the callback of the run returns it; `askUser` rewrites the reply to
an `AskUserQuestion`. -/
def deliver (askUser : ToolCall Input → PermissionResult Input → PermissionResult Input)
    (tool : Option (ToolCall Input)) (result : PermissionResult Input) : PermissionResult Input :=
  match tool with
  | some t => if t.name = "AskUserQuestion" then askUser t result else result
  | none => result

/-- The callback of the run that was captured at admission starts. A run without a coordinator that
needs one raises. -/
def consult (s : PermissionSystem Input) (c : Nat) (requestId : String) (binding : RunBinding)
    (tool : ToolCall Input) : Option (PermissionSystem Input) :=
  match unifiedCanUseTool binding tool with
  | .answer result => some (s.finishCall c (.returned result (some binding.run)))
  | .request =>
    if binding.hasCoordinator then
      -- uuid4 never repeats an id
      match (s.coordinators binding.run).futures requestId with
      | .absent => some
          ((s.setCoordinator binding.run
              ((s.coordinators binding.run).createRequest requestId)).setCall c
            ((s.calls c).moveTo (.announcing binding.run requestId)))
      | _ => none
    else some (s.finishCall c .raised)

/-- `coordinator.cancel_all()` of an unbinding run. -/
def cancelCoordinator (s : PermissionSystem Input) : Option Nat → PermissionSystem Input
  | some k => s.setCoordinator k (s.coordinators k).cancelAll
  | none => s

/-- One turn of the drain loop of `unbind`, and what follows it. -/
def drain (s : PermissionSystem Input) (u generation : Nat) (coordinator : Option Nat)
    (timedOut : Bool) : PermissionSystem Input :=
  if s.bridge.inflightZero then
    (s.cancelCoordinator coordinator).setUnbind u (.returned generation true)
  else
    (s.cancelCoordinator coordinator).setUnbind u
      (if timedOut then .returned generation false else .draining generation coordinator)

def step (askUser : ToolCall Input → PermissionResult Input → PermissionResult Input)
    (s : PermissionSystem Input) : PermissionEvent Input → Option (PermissionSystem Input)
  | .bind binding => some { s with bridge := s.bridge.bind binding }
  | .call c tool =>
    match (s.calls c).phase with
    | .idle => some (s.admitCall c tool)
    | _ => none
  | .consult c requestId =>
    match s.calls c with
    | ⟨.admitted, some (_, binding), some tool⟩ => s.consult c requestId binding tool
    | _ => none
  | .announced c =>
    match (s.calls c).phase with
    | .announcing k requestId => some (s.setCall c ((s.calls c).moveTo (.waiting k requestId)))
    | _ => none
  | .resume c =>
    match (s.calls c).phase with
    | .waiting k requestId =>
      match (s.coordinators k).futures requestId with
      | .done result => some
          ((s.setCoordinator k ((s.coordinators k).popRequest requestId)).finishCall c
            (.returned (deliver askUser (s.calls c).tool result) (some k)))
      | _ => none
    | _ => none
  | .expire c =>
    match (s.calls c).phase with
    | .waiting k requestId =>
      match (s.coordinators k).futures requestId with
      | .pending => some
          ((s.setCoordinator k ((s.coordinators k).expireRequest requestId)).setCall c
            ((s.calls c).moveTo (.expiring k requestId)))
      | _ => none
    | _ => none
  | .expireSent c =>
    match (s.calls c).phase with
    | .expiring k requestId => some
        ((s.setCoordinator k ((s.coordinators k).popRequest requestId)).finishCall c
          (.returned (.deny "user did not answer") (some k)))
    | _ => none
  | .fail c =>
    match (s.calls c).phase with
    -- the put of the request stands before the `try`, so its failure leaves the entry behind
    | .admitted | .announcing .. => some (s.finishCall c .raised)
    | .waiting k requestId | .expiring k requestId => some
        ((s.setCoordinator k ((s.coordinators k).popRequest requestId)).finishCall c .raised)
    | _ => none
  | .resolve k requestId decision message updatedInput =>
    match (s.coordinators k).resolve requestId decision message updatedInput with
    | .ok (_, coordinator) => some (s.setCoordinator k coordinator)
    | .error _ => some s
  | .cancelAll k => some (s.setCoordinator k (s.coordinators k).cancelAll)
  | .unbind u generation timedOut =>
    match s.unbinds u with
    | .idle =>
      if generation ≠ s.bridge.generation then some (s.setUnbind u (.returned generation false))
      else some ({ s with bridge := s.bridge.unbound }.drain u generation
        s.bridge.coordinator timedOut)
    | _ => none
  | .unbindWake u timedOut =>
    match s.unbinds u with
    | .draining generation coordinator => some (s.drain u generation coordinator timedOut)
    | _ => none
  | .unbindCancel u =>
    match s.unbinds u with
    | .draining .. => some (s.setUnbind u .cancelled)
    | _ => none

variable {askUser : ToolCall Input → PermissionResult Input → PermissionResult Input}

/-- What an event does, branch by branch. -/
inductive Moves (askUser : ToolCall Input → PermissionResult Input → PermissionResult Input)
    (s : PermissionSystem Input) : PermissionEvent Input → PermissionSystem Input → Prop
  | bind (binding) : Moves askUser s (.bind binding) { s with bridge := s.bridge.bind binding }
  | call (c tool) (hidle : (s.calls c).phase = .idle) : Moves askUser s (.call c tool) (s.admitCall c tool)
  | consult (c requestId) {g binding tool s'} (hp : (s.calls c).phase = .admitted)
      (ha : (s.calls c).admission = some (g, binding)) (hs : s.consult c requestId binding tool = some s') :
      Moves askUser s (.consult c requestId) s'
  | announced (c) {k requestId} (hp : (s.calls c).phase = .announcing k requestId) :
      Moves askUser s (.announced c) (s.setCall c ((s.calls c).moveTo (.waiting k requestId)))
  | resume (c) {k requestId result} (hp : (s.calls c).phase = .waiting k requestId) :
      Moves askUser s (.resume c) ((s.setCoordinator k ((s.coordinators k).popRequest requestId)).finishCall c
        (.returned (deliver askUser (s.calls c).tool result) (some k)))
  | expire (c) {k requestId} (hp : (s.calls c).phase = .waiting k requestId) :
      Moves askUser s (.expire c) ((s.setCoordinator k ((s.coordinators k).expireRequest requestId)).setCall c
        ((s.calls c).moveTo (.expiring k requestId)))
  | expireSent (c) {k requestId} (hp : (s.calls c).phase = .expiring k requestId) :
      Moves askUser s (.expireSent c) ((s.setCoordinator k ((s.coordinators k).popRequest requestId)).finishCall
        c (.returned (.deny "user did not answer") (some k)))
  | failEarly (c) (hx : (s.calls c).executing = true) : Moves askUser s (.fail c) (s.finishCall c .raised)
  | fail (c k requestId) (hx : (s.calls c).executing = true) : Moves askUser s (.fail c)
      ((s.setCoordinator k ((s.coordinators k).popRequest requestId)).finishCall c .raised)
  | resolve (k requestId decision message updatedInput coordinator) :
      Moves askUser s (.resolve k requestId decision message updatedInput) (s.setCoordinator k coordinator)
  | unresolved (k requestId decision message updatedInput) :
      Moves askUser s (.resolve k requestId decision message updatedInput) s
  | cancelAll (k) : Moves askUser s (.cancelAll k) (s.setCoordinator k (s.coordinators k).cancelAll)
  | stale (u g timedOut) : Moves askUser s (.unbind u g timedOut) (s.setUnbind u (.returned g false))
  | unbind (u timedOut) : Moves askUser s (.unbind u s.bridge.generation timedOut)
      ({ s with bridge := s.bridge.unbound }.drain u s.bridge.generation s.bridge.coordinator timedOut)
  | unbindWake (u timedOut) {g k} (hu : s.unbinds u = .draining g k) :
      Moves askUser s (.unbindWake u timedOut) (s.drain u g k timedOut)
  | unbindCancel (u) : Moves askUser s (.unbindCancel u) (s.setUnbind u .cancelled)

theorem step_moves {s s' : PermissionSystem Input} {e : PermissionEvent Input}
    (hs : s.step askUser e = some s') : s.Moves askUser e s' := by
  cases e with
  | bind | cancelAll =>
    cases hs
    constructor
  | consult c requestId =>
    simp only [step] at hs
    split at hs
    · rename_i hc
      exact .consult c requestId (by rw [hc]) (by rw [hc]) hs
    · cases hs
  | resume c | expire c =>
    simp only [step] at hs
    split at hs
    · split at hs <;> cases hs
      constructor
      assumption
    · cases hs
  | fail c =>
    simp only [step] at hs
    split at hs <;> cases hs
    · exact .failEarly c (by simp [*, Callback.executing])
    · exact .failEarly c (by simp [*, Callback.executing])
    · exact .fail c _ _ (by simp [*, Callback.executing])
    · exact .fail c _ _ (by simp [*, Callback.executing])
  | unbind u g timedOut =>
    simp only [step] at hs
    split at hs
    · split at hs
      · cases hs
        exact .stale u g timedOut
      · rename_i hg
        cases hs
        obtain rfl : g = s.bridge.generation := by simpa using hg
        exact .unbind u timedOut
    · cases hs
  | resolve k requestId decision message updatedInput =>
    simp only [step] at hs
    split at hs <;> cases hs
    · exact .resolve k requestId decision message updatedInput _
    · exact .unresolved k requestId decision message updatedInput
  | call | announced | expireSent | unbindWake | unbindCancel =>
    simp only [step] at hs
    split at hs <;> cases hs
    constructor <;> assumption

end PermissionSystem

end PrivaCloud.AgentRunner
