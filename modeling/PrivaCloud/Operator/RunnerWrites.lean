import PrivaCloud.Operator.Handlers

/-!
# What the handlers write of the Runner

The handlers of the Runner with the fields that they write to its status, at once or in the patch that is applied
when the handler has ended. Without the writes they are the scripts of `Reconcile`.
-/

namespace PrivaCloud.Operator

open Framework

structure StatusPatch where
  phase : Option RunnerPhase := none
  podIp : Option (Option String) := none
  readyReplicas : Option Nat := none
  startedAt : Option Int := none

namespace StatusPatch

def apply (fields : StatusPatch) (status : RunnerStatus) : RunnerStatus where
  phase := fields.phase.or status.phase
  podIp := fields.podIp.getD status.podIp
  readyReplicas := fields.readyReplicas.getD status.readyReplicas
  startedAt := fields.startedAt.or status.startedAt

def update (fields later : StatusPatch) : StatusPatch where
  phase := later.phase.or fields.phase
  podIp := later.podIp.or fields.podIp
  readyReplicas := later.readyReplicas.or fields.readyReplicas
  startedAt := later.startedAt.or fields.startedAt

def gone (phase : RunnerPhase) : StatusPatch where
  phase := some phase
  podIp := some none
  readyReplicas := some 0

def running (podIp : String) : StatusPatch where
  phase := some .running
  podIp := some (some podIp)
  readyReplicas := some 1

end StatusPatch

/-- A remote call, the call that makes the status not routable, or assignments to `patch.status`; `stamped` ones assign
`time.time()` to `startedAt`. -/
inductive RunnerOp
  | kube (op : OperatorOp)
  | setCrStatus (phase : RunnerPhase)
  | patch (fields : StatusPatch) (stamped : Bool)

def RunnerOp.Reply : RunnerOp → Type
  | .kube op => op.Reply
  | .setCrStatus _ | .patch _ _ => Unit

abbrev RunnerScript (α : Type) : Type := Script RunnerOp RunnerOp.Reply α

namespace RunnerScript

variable {α β : Type}

def lift : OperatorScript α → RunnerScript α
  | .pure a => .pure a
  | .call op next => .call (.kube op) fun reply => lift (next reply)

def setCrStatus (phase : RunnerPhase) : RunnerScript Unit := Script.perform (RunnerOp.setCrStatus phase)

def patch (fields : StatusPatch) : RunnerScript Unit := Script.perform (RunnerOp.patch fields false)

/-- `patch.status["startedAt"] = time.time()`, with other fields -/
def stamp (fields : StatusPatch) : RunnerScript Unit := Script.perform (RunnerOp.patch fields true)

end RunnerScript

namespace RunnerWrites

open Kube RunnerScript

/-- A Runner that runs is taken down, after its status. -/
def takeDown (phase : RunnerPhase) (replicas : Int) : RunnerScript Unit :=
  if 0 < replicas then do
    setCrStatus phase
    lift (scale .runner 0)
  else pure ()

def inactivePhase (args : HandlerArgs) : RunnerPhase :=
  if args.spec.desiredState = "purge" then .purged else .offboarding

/-- The patch of a tenant that is not active, where its status says otherwise -/
def patchInactive (args : HandlerArgs) : RunnerScript Unit :=
  let phase := inactivePhase args
  if args.status.phase ≠ some phase ∨ args.status.podIp ≠ none ∨ args.status.readyReplicas ≠ 0 then
    patch (.gone phase)
  else pure ()

def quiesceIfInactive (args : HandlerArgs) : RunnerScript Bool :=
  if args.spec.desiredState = "active" then pure false
  else do
    let replicas ← lift (getReplicas .runner)
    let terminalReplicas ← lift (getReplicas .terminal)
    takeDown (inactivePhase args) replicas
    lift (Reconcile.takeDown .terminal terminalReplicas)
    patchInactive args
    pure true

def admitted (args : HandlerArgs) (body : RunnerScript Unit) : RunnerScript Unit := do
  if ← lift (teardownStarted args) then pure ()
  else if ← quiesceIfInactive args then pure ()
  else if args.identified then body
  else pure ()

def withDefaults (args : HandlerArgs) (body : RunnerDefaults → RunnerScript Unit) : RunnerScript Unit :=
  match args.defaults with
  | none => pure ()
  | some defaults => body defaults

/-- The scale-up of a Runner that is created, and what follows it. -/
def scaleUpRunner (after : RunnerScript Unit) : RunnerScript Unit := do
  let replicas ← lift (getReplicas .runner)
  if replicas < 0 then patch (.gone .pendingTerminalDrain)
  else do
    lift (scale .runner 1)
    after

/-- The end of `ensure`: a persistent Runner is brought to one; its start is kept. -/
def ensurePersistent (args : HandlerArgs) : RunnerScript Unit := do
  let replicas ← lift (getReplicas .runner)
  if args.persistent ∧ args.spec.desiredState = "active" then
    if replicas < 0 then patch (.gone .pendingTerminalDrain)
    else if replicas ≠ 1 then do
      lift (scale .runner 1)
      awaitReady
    else awaitReady
  else if replicas ≤ 0 then patch { phase := some .zero, readyReplicas := some 0 }
  else pure ()
where
  awaitReady : RunnerScript Unit := do
    match ← lift (readyPodIp .runner) with
    | none => patch { phase := some .waking }
    | some ip =>
      match args.status.startedAt with
      | none | some 0 => stamp (.running ip)
      | some startedAt => patch { StatusPatch.running ip with startedAt := some startedAt }

def ensure (args : HandlerArgs) : RunnerScript Unit :=
  admitted args <| withDefaults args fun defaults => do
    let _ ← lift (desired (resolveAllocation args.spec args.settings defaults))
    lift renderManagedPolicy
    lift (ensureRuntimeObjects args defaults)
    lift (Reconcile.ensureTerminal args defaults)
    ensurePersistent args

/-- A wake of a Runner that is scaled to one: the address of its pod is written, with a start if it is new. -/
def resolveWake (args : HandlerArgs) : RunnerScript Unit := do
  match ← lift (readyPodIp .runner) with
  | none => patch { phase := some .waking }
  | some ip => if some ip ≠ args.status.podIp then stamp (.running ip) else patch (.running ip)

/-- The wait for the pod of a Runner that has been scaled up -/
def awaitWoken : RunnerScript Unit := do
  patch { phase := some .waking }
  match ← lift (readyPodIp .runner) with
  | none => patch { phase := some .waking }
  | some ip => stamp (.running ip)

def onWake (args : HandlerArgs) : RunnerScript Unit :=
  admitted args do
    let replicas ← lift (getReplicas .runner)
    if replicas = 1 then resolveWake args
    else
      withDefaults args fun defaults => do
        lift (ensureRuntimeObjects args defaults)
        scaleUpRunner awaitWoken

/-- A Runner that sleeps: its template is converged, and a persistent one is woken. -/
def restoreRunner (args : HandlerArgs) (defaults : RunnerDefaults) (a : Allocation) : RunnerScript Unit := do
  if ← lift (teardownStarted args) then pure ()
  else
    let applied ← lift appliedAllocationHash
    if applied ≠ some a.hash then do
      lift (ensureRuntimeObjects args defaults)
      if args.persistent then scaleUpRunner (stamp (.gone .waking)) else pure ()
    else if args.persistent then scaleUpRunner (stamp (.gone .waking))
    else pure ()

def sleepRunner (phase : RunnerPhase) : RunnerScript Unit := do
  takeDown phase 1
  patch (.gone phase)

/-- A persistent Runner of an older generation is taken down while it has no run. -/
def replaceStale (a : Allocation) (applied : Option String) (ip : String) : RunnerScript Unit :=
  if applied ≠ some a.hash then do
    match ← lift (probe .runner ip) with
    | none => pure ()
    | some h => if h.active = 0 then sleepRunner .waking else pure ()
  else pure ()

def sweepIdle (args : HandlerArgs) (defaults : RunnerDefaults) (ip : String) : RunnerScript Unit :=
  match args.status.startedAt with
  | none | some 0 => pure ()
  | some startedAt => do
      let now ← lift clock
      if now - startedAt < resolveMinAlive args.spec defaults then pure ()
      else
        match ← lift (probe .runner ip) with
        | none => pure ()
        | some h =>
          if h.active = 0 ∧ resolveIdleGrace args.spec defaults < now - h.lastActivity then
            sleepRunner .zero
          else pure ()

/-- A Runner that runs: the status is healed, or the sweep goes on. -/
def sweepRunner (args : HandlerArgs) (defaults : RunnerDefaults) (a : Allocation) : RunnerScript Unit := do
  match ← lift (readyPodIp .runner) with
  | none => patch (.gone .waking)
  | some ip =>
    if some ip ≠ args.status.podIp then stamp (.running ip)
    else do
      let applied ← lift appliedAllocationHash
      if args.persistent then replaceStale a applied ip else sweepIdle args defaults ip

def reconcileRuntime (args : HandlerArgs) : RunnerScript Unit :=
  admitted args do
    let replicas ← lift (getReplicas .runner)
    withDefaults args fun defaults => do
      let a ← lift (desired (resolveAllocation args.spec args.settings defaults))
      lift renderManagedPolicy
      lift (Reconcile.reconcileQuota args defaults)
      if replicas ≤ 0 then restoreRunner args defaults a
      else if replicas = 1 then sweepRunner args defaults a
      else pure ()

end RunnerWrites

end PrivaCloud.Operator
