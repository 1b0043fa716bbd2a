import PrivaCloud.Framework.Script
import PrivaCloud.Operator.Allocation

/-!
# The handlers of the operator

The handlers of an AgentTenant as scripts of remote calls, down to the calls that `kube` makes for
them. Writes of the status are one call without content.
-/

namespace PrivaCloud.Operator

open Framework

/-- The two Deployments of a tenant. -/
inductive Component
  | runner
  | terminal
  deriving DecidableEq

/-- What the operator reads of a pod template: the annotations and the resources of the container. -/
structure Template where
  allocationHash : Option String
  terminalPercent : Int
  resources : Share
  deriving DecidableEq

structure Deployment where
  template : Template
  replicas : Nat
  resourceVersion : Nat
  deriving DecidableEq

/-- `_deployment_allocation_generation` -/
def Template.generation (t : Template) : String :=
  match t.allocationHash with
  | some hash =>
    if hash = "" then "legacy-percent:" ++ toString t.terminalPercent else hash
  | none => "legacy-percent:" ++ toString t.terminalPercent

/-- `_deployment_body` and `_terminal_deployment_body` -/
def Allocation.template (a : Allocation) : Component → Template
  | .runner => ⟨some a.hash, a.percent, a.runner⟩
  | .terminal => ⟨some a.hash, a.percent, a.terminal⟩

structure Health where
  active : Int
  lastActivity : Int
  sessionRevision : Option Int := none
  deriving DecidableEq

/-- A remote call, or a look at what the process shares. -/
inductive OperatorOp
  | teardownStarted (uid : String) (deleting : Bool)
  | read (c : Component)
  | provision (storageGb : Int)
  | createService (c : Component)
  | create (c : Component) (template : Template)
  | replace (c : Component) (template : Template) (replicas resourceVersion : Nat)
  | scale (c : Component) (replicas : Nat)
  | patchResources (c : Component) (resources : Share)
  | readyPod (c : Component)
  | health (c : Component) (podIp : String)
  | drain (podIp : String) (revision : Int)
  | setCrStatus
  | renderManagedPolicy
  | setQuota (storageGb : Int)
  | clock
  | recordPurging (uid : String)
  | deprovision
  | deleteExportClaim
  | raise (message : String)
  deriving DecidableEq

/-- The answer to a call that does not raise; the handlers catch the errors of the probes, of the
drain and of the quota themselves. -/
def OperatorOp.Reply : OperatorOp → Type
  | .teardownStarted _ _ => Bool
  | .read _ => Option Deployment
  | .readyPod _ => Option String
  | .health _ _ => Option Health
  | .drain _ _ => Bool
  | .setQuota _ => Bool
  | .clock => Int
  | .deleteExportClaim => Bool
  | .raise _ => Empty
  | .provision _ | .createService _ | .create _ _ | .replace _ _ _ _ | .scale _ _ | .patchResources _ _
  | .setCrStatus | .renderManagedPolicy | .recordPurging _ | .deprovision => Unit

abbrev OperatorScript (α : Type) : Type := Script OperatorOp OperatorOp.Reply α

/-- The values of `phase` that are written for the Runner -/
inductive RunnerPhase
  | zero
  | waking
  | running
  | pendingTerminalDrain
  | offboarding
  | purged
  deriving DecidableEq

/-- The part of `status` that is about the Runner -/
structure RunnerStatus where
  phase : Option RunnerPhase := none
  podIp : Option String := none
  readyReplicas : Nat := 0
  startedAt : Option Int := none
  deriving DecidableEq

/-- The part of `status` that a handler decides by. -/
structure TenantStatus extends RunnerStatus where
  storageGb : Int := 0
  storageRejectedGb : Option Int := none
  storageRetryAfter : Int := 0
  terminalPhase : String := ""
  deriving DecidableEq

/-- The arguments of a handler: snapshots of the tenant, and the defaults if there are any. -/
structure HandlerArgs where
  spec : TenantSpec
  uid : String
  deleting : Bool := false
  status : TenantStatus := {}
  settings : KubernetesSettings := {}
  defaults : Option RunnerDefaults

namespace HandlerArgs

/-- `_ids_or_reject` -/
def identified (args : HandlerArgs) : Bool := args.spec.accountId ≠ "" && args.spec.username ≠ ""

def persistent (args : HandlerArgs) : Bool := args.spec.agentRunnerType = "persistent"

def legacyDraining (args : HandlerArgs) : Bool := args.status.terminalPhase = "DrainingLegacy"

end HandlerArgs

namespace Kube

def teardownStarted (args : HandlerArgs) : OperatorScript Bool :=
  Script.perform (OperatorOp.teardownStarted args.uid args.deleting)

def readDeployment (c : Component) : OperatorScript (Option Deployment) :=
  Script.perform (OperatorOp.read c)

def provision (storageGb : Int) : OperatorScript Unit := Script.perform (OperatorOp.provision storageGb)

def createService (c : Component) : OperatorScript Unit := Script.perform (OperatorOp.createService c)

def createDeployment (c : Component) (template : Template) : OperatorScript Unit :=
  Script.perform (OperatorOp.create c template)

def replaceDeployment (c : Component) (template : Template) (existing : Deployment) : OperatorScript Unit :=
  Script.perform (OperatorOp.replace c template existing.replicas existing.resourceVersion)

def scale (c : Component) (replicas : Nat) : OperatorScript Unit := Script.perform (OperatorOp.scale c replicas)

def patchResources (c : Component) (resources : Share) : OperatorScript Unit :=
  Script.perform (OperatorOp.patchResources c resources)

/-- `current_ready_pod_ip`, or the wait for a pod. -/
def readyPodIp (c : Component) : OperatorScript (Option String) := Script.perform (OperatorOp.readyPod c)

def probe (c : Component) (podIp : String) : OperatorScript (Option Health) :=
  Script.perform (OperatorOp.health c podIp)

def beginTerminalDrain (podIp : String) (revision : Int) : OperatorScript Bool :=
  Script.perform (OperatorOp.drain podIp revision)

def setCrStatus : OperatorScript Unit := Script.perform OperatorOp.setCrStatus

def renderManagedPolicy : OperatorScript Unit := Script.perform OperatorOp.renderManagedPolicy

def setQuota (storageGb : Int) : OperatorScript Bool := Script.perform (OperatorOp.setQuota storageGb)

def clock : OperatorScript Int := Script.perform OperatorOp.clock

def recordPurging (uid : String) : OperatorScript Unit := Script.perform (OperatorOp.recordPurging uid)

def deprovision : OperatorScript Unit := Script.perform OperatorOp.deprovision

def deleteExportClaim : OperatorScript Bool := Script.perform OperatorOp.deleteExportClaim

def raise {α : Type} (message : String) : OperatorScript α :=
  Script.call (OperatorOp.raise message) fun never => nomatch never

def getReplicas (c : Component) : OperatorScript Int := do
  match ← readDeployment c with
  | none => pure (-1)
  | some d => pure d.replicas

def appliedAllocationHash : OperatorScript (Option String) := do
  let d ← readDeployment .runner
  pure (d.map fun d => d.template.generation)

/-- The body of a Deployment, from an allocation that can be split. -/
def desired (a : Option Allocation) : OperatorScript Allocation :=
  match a with
  | some a => pure a
  | none => raise "terminal requires at least 2m CPU and 2Mi memory total"

def ensureRuntimeObjects (args : HandlerArgs) (defaults : RunnerDefaults) : OperatorScript Unit := do
  provision (resolveStorageGb args.spec defaults)
  createService .runner
  let a ← desired (resolveAllocation args.spec args.settings defaults)
  match ← readDeployment .runner with
  | none =>
    match ← readDeployment .terminal with
    | none => createDeployment .runner (a.template .runner)
    | some terminal =>
      -- a Terminal that runs keeps a Runner of another generation from being created
      if 0 < terminal.replicas ∧ a.hash ≠ terminal.template.generation then pure ()
      else createDeployment .runner (a.template .runner)
  | some existing =>
    if 0 < existing.replicas then pure ()
    else
      match ← readDeployment .terminal with
      | none =>
        replaceDeployment .runner (a.template .runner) existing
      | some terminal =>
        if 0 < terminal.replicas then
          if existing.template.generation ≠ terminal.template.generation then
            raise "runner/terminal allocation generation mismatch"
          else pure ()
        else replaceDeployment .runner (a.template .runner) existing

def ensureTerminalObjects (args : HandlerArgs) (defaults : RunnerDefaults) : OperatorScript Unit :=
  if resolveTerminalPercent defaults ≤ 0 then pure ()
  else do
    provision (resolveStorageGb args.spec defaults)
    createService .terminal
    let a ← desired (resolveAllocation args.spec args.settings defaults)
    match ← readDeployment .terminal with
    | none => createDeployment .terminal (a.template .terminal)
    | some existing =>
      if 0 < existing.replicas then pure ()
      else
        replaceDeployment .terminal (a.template .terminal) existing

end Kube

namespace Reconcile

open Kube

/-- A component that runs is taken down, after its status. -/
def takeDown (c : Component) (replicas : Int) : OperatorScript Unit :=
  if 0 < replicas then do
    setCrStatus
    scale c 0
  else pure ()

def quiesceIfInactive (args : HandlerArgs) : OperatorScript Bool :=
  if args.spec.desiredState = "active" then pure false
  else do
    let replicas ← getReplicas .runner
    let terminalReplicas ← getReplicas .terminal
    takeDown .runner replicas
    takeDown .terminal terminalReplicas
    pure true

/-- What every handler checks first; `body` runs with defaults that are there. -/
def admitted (args : HandlerArgs) (body : OperatorScript Unit) : OperatorScript Unit := do
  if ← teardownStarted args then pure ()
  else if ← quiesceIfInactive args then pure ()
  else if args.identified then body
  else pure ()

/-- `_defaults_or_reject` -/
def withDefaults (args : HandlerArgs) (body : RunnerDefaults → OperatorScript Unit) : OperatorScript Unit :=
  match args.defaults with
  | none => pure ()
  | some defaults => body defaults

/-- The scale-up of a Runner that is created, and what follows it. -/
def scaleUpRunner (after : OperatorScript Unit) : OperatorScript Unit := do
  let replicas ← getReplicas .runner
  if replicas < 0 then pure ()
  else do
    scale .runner 1
    after

/-- `wait_pod_ready`, or a look at the pod that is there. -/
def awaitPod (c : Component) : OperatorScript Unit := do
  let _ ← readyPodIp c

def scaleDown (c : Component) (replicas : Int) : OperatorScript Unit :=
  if 0 < replicas then scale c 0 else pure ()

/-- The Terminal of `ensure`. -/
def ensureTerminal (args : HandlerArgs) (defaults : RunnerDefaults) : OperatorScript Unit :=
  if 0 < resolveTerminalPercent defaults then do
    ensureTerminalObjects args defaults
    let _ ← getReplicas .terminal
  else do
    let replicas ← getReplicas .terminal
    scaleDown .terminal replicas

/-- The end of `ensure`: a persistent Runner is brought to one. -/
def ensurePersistent (args : HandlerArgs) : OperatorScript Unit := do
  let replicas ← getReplicas .runner
  if args.persistent ∧ args.spec.desiredState = "active" then
    if replicas < 0 then pure ()
    else if replicas ≠ 1 then do
      scale .runner 1
      awaitPod .runner
    else awaitPod .runner
  else pure ()

def ensure (args : HandlerArgs) : OperatorScript Unit :=
  admitted args <| withDefaults args fun defaults => do
    let _ ← desired (resolveAllocation args.spec args.settings defaults)
    renderManagedPolicy
    ensureRuntimeObjects args defaults
    ensureTerminal args defaults
    ensurePersistent args

/-- `purge`; `deleting` is what the handler is called for. -/
def purge (args : HandlerArgs) : OperatorScript Unit := do
  recordPurging args.uid
  let replicas ← getReplicas .runner
  scaleDown .runner replicas
  let terminalReplicas ← getReplicas .terminal
  scaleDown .terminal terminalReplicas
  deprovision
  let _ ← deleteExportClaim

def onWake (args : HandlerArgs) : OperatorScript Unit :=
  admitted args do
    let replicas ← getReplicas .runner
    if replicas = 1 then awaitPod .runner
    else
      withDefaults args fun defaults => do
        ensureRuntimeObjects args defaults
        scaleUpRunner (awaitPod .runner)

def wakeTerminal (args : HandlerArgs) (defaults : RunnerDefaults) (a : Allocation) (runnerReplicas : Int)
    (terminalReplicas : Int) (applied : Option String) : OperatorScript Unit :=
  if terminalReplicas ≤ 0 ∧ 0 < runnerReplicas ∧ applied ≠ some a.hash then pure ()
  else if terminalReplicas = 1 then awaitPod .terminal
  else do
    ensureTerminalObjects args defaults
    scale .terminal 1
    awaitPod .terminal

def convergeRunner (args : HandlerArgs) (defaults : RunnerDefaults) (runnerReplicas terminalReplicas : Int)
    (applied : Option String) : OperatorScript (Option String) :=
  if runnerReplicas = 0 ∧ terminalReplicas ≤ 0 then do
    ensureRuntimeObjects args defaults
    appliedAllocationHash
  else pure applied

def onTerminalWake (args : HandlerArgs) : OperatorScript Unit :=
  admitted args <| withDefaults args fun defaults => do
    let a ← desired (resolveAllocation args.spec args.settings defaults)
    if resolveTerminalPercent defaults ≤ 0 then pure ()
    else do
      let runnerReplicas ← getReplicas .runner
      let terminalReplicas ← getReplicas .terminal
      let applied ← appliedAllocationHash
      let applied ← convergeRunner args defaults runnerReplicas terminalReplicas applied
      -- `applied_terminal_percent`
      if 0 < runnerReplicas then do
        let _ ← readDeployment .runner
        wakeTerminal args defaults a runnerReplicas terminalReplicas applied
      else wakeTerminal args defaults a runnerReplicas terminalReplicas applied

/-- The quota of `reconcile_runtime`. -/
def reconcileQuota (args : HandlerArgs) (defaults : RunnerDefaults) : OperatorScript Unit := do
  let desiredGb := resolveStorageGb args.spec defaults
  let now ← clock
  if args.status.storageGb ≠ desiredGb ∧ args.status.storageRejectedGb ≠ some desiredGb ∧
      args.status.storageRetryAfter ≤ now then do
    let _ ← setQuota desiredGb
  else pure ()

/-- A Runner that sleeps: its template is converged, and a persistent one is woken. -/
def restoreRunner (args : HandlerArgs) (defaults : RunnerDefaults) (a : Allocation) : OperatorScript Unit := do
  if ← teardownStarted args then pure ()
  else
    let applied ← appliedAllocationHash
    if applied ≠ some a.hash then do
      ensureRuntimeObjects args defaults
      if args.persistent then scaleUpRunner (pure ()) else pure ()
    else if args.persistent then scaleUpRunner (pure ())
    else pure ()

/-- A Runner that runs: a persistent one of an older generation and an idle one are taken down. -/
def sweepRunner (args : HandlerArgs) (defaults : RunnerDefaults) (a : Allocation) : OperatorScript Unit := do
  match ← readyPodIp .runner with
  | none => pure ()
  | some ip =>
    if some ip ≠ args.status.podIp then pure ()
    else
      let applied ← appliedAllocationHash
      if args.persistent then
        if applied ≠ some a.hash then
          match ← probe .runner ip with
          | none => pure ()
          | some h => if h.active = 0 then takeDown .runner 1 else pure ()
        else pure ()
      else
        match args.status.startedAt with
        | none | some 0 => pure ()
        | some startedAt =>
          let now ← clock
          if now - startedAt < resolveMinAlive args.spec defaults then pure ()
          else
            match ← probe .runner ip with
            | none => pure ()
            | some h =>
              if h.active = 0 ∧ resolveIdleGrace args.spec defaults < now - h.lastActivity then
                takeDown .runner 1
              else pure ()

def reconcileRuntime (args : HandlerArgs) : OperatorScript Unit :=
  admitted args do
    let replicas ← getReplicas .runner
    withDefaults args fun defaults => do
      let a ← desired (resolveAllocation args.spec args.settings defaults)
      renderManagedPolicy
      reconcileQuota args defaults
      if replicas ≤ 0 then restoreRunner args defaults a
      else if replicas = 1 then sweepRunner args defaults a
      else pure ()

def sleepTerminal (args : HandlerArgs) (defaults : RunnerDefaults) (ip : String) (h : Health) :
    OperatorScript Unit := do
  let now ← clock
  if h.active = 0 ∧ (args.legacyDraining ∨ defaults.terminalScaleDownGraceSeconds ≤ now - h.lastActivity) then
    match h.sessionRevision with
    | none =>
      if args.legacyDraining then scale .terminal 0
      else setCrStatus
    | some revision =>
      if ← beginTerminalDrain ip revision then do
        setCrStatus
        scale .terminal 0
      else pure ()
  else pure ()

def sweepTerminal (args : HandlerArgs) (defaults : RunnerDefaults) : OperatorScript Unit := do
  match ← readyPodIp .terminal with
  | none => pure ()
  | some ip =>
    match ← probe .terminal ip with
    | none => pure ()
    | some h => sleepTerminal args defaults ip h

def reconcileTerminal (args : HandlerArgs) : OperatorScript Unit :=
  admitted args <| withDefaults args fun defaults => do
    let a ← desired (resolveAllocation args.spec args.settings defaults)
    let replicas ← getReplicas .terminal
    if resolveTerminalPercent defaults ≤ 0 then takeDown .terminal replicas
    else do
      let runnerReplicas ← getReplicas .runner
      -- `applied_terminal_percent`
      let _ ← readDeployment .runner
      let applied ← appliedAllocationHash
      if replicas ≤ 0 ∧ 0 < runnerReplicas ∧ applied ≠ some a.hash then pure ()
      else if replicas < 0 then
        if ← teardownStarted args then pure ()
        else ensureTerminalObjects args defaults
      else if replicas = 1 then sweepTerminal args defaults
      else pure ()

/-- `on_resources_change`, of a field that had a value. -/
def onResourcesChange (args : HandlerArgs) : OperatorScript Unit := do
  let replicas ← getReplicas .runner
  let terminalReplicas ← getReplicas .terminal
  if replicas ≠ 0 ∨ 0 < terminalReplicas then pure ()
  else
    withDefaults args fun defaults => do
      let a ← desired (resolveAllocation args.spec args.settings defaults)
      patchResources .runner a.runner
      let terminalReplicas ← getReplicas .terminal
      if terminalReplicas = 0 then patchResources .terminal a.terminal
      else pure ()

end Reconcile

inductive HandlerName
  | ensure
  | purge
  | onWake
  | onTerminalWake
  | reconcileRuntime
  | reconcileTerminal
  | onResourcesChange
  deriving DecidableEq

structure HandlerRequest where
  name : HandlerName
  args : HandlerArgs

def HandlerRequest.script (request : HandlerRequest) : OperatorScript Unit :=
  match request.name with
  | .ensure => Reconcile.ensure request.args
  | .purge => Reconcile.purge request.args
  | .onWake => Reconcile.onWake request.args
  | .onTerminalWake => Reconcile.onTerminalWake request.args
  | .reconcileRuntime => Reconcile.reconcileRuntime request.args
  | .reconcileTerminal => Reconcile.reconcileTerminal request.args
  | .onResourcesChange => Reconcile.onResourcesChange request.args

end PrivaCloud.Operator
