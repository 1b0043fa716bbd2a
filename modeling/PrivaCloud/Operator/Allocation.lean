import PrivaCloud.Framework.Json

/-!
# The allocation of a tenant

What an AgentTenant, the defaults and the settings of the operator resolve to: the total of the
tenant, the shares of the Runner and of the Terminal, and the hash that both Deployments carry.
-/

namespace PrivaCloud.Operator

open Framework

/-- `spec` of an AgentTenant; an amount of CPU is in thousandths of a core. -/
structure TenantSpec where
  accountId : String
  username : String
  desiredState : String := "active"
  agentRunnerType : String := "auto_scale"
  cpuM : Option Int := none
  memoryMb : Option Int := none
  storageGb : Option Int := none
  image : String := ""
  /-- `idle.graceSeconds` -/
  idleGraceSeconds : Option Int := none
  /-- `idle.minAliveAfterWakeSeconds` -/
  idleMinAliveSeconds : Option Int := none
  deriving DecidableEq

/-- The global `runner_defaults`. -/
structure RunnerDefaults where
  cpuM : Int
  memoryMb : Int
  storageGb : Int
  terminalResourcePercent : Int
  idleGraceSeconds : Int := 0
  minAliveAfterWakeSeconds : Int := 0
  terminalScaleDownGraceSeconds : Int := 0
  deriving DecidableEq

/-- The fields of `settings.kubernetes` that decide an allocation. -/
structure KubernetesSettings where
  runnerImage : String := "runner"
  runnerImagePullPolicy : String := "IfNotPresent"
  runnerUid : Int := 10001
  runnerGid : Int := 10001
  deriving DecidableEq

/-- Thousandths of a core and mebibytes. -/
@[ext] structure Share where
  cpuM : Int
  memoryMb : Int
  deriving DecidableEq

namespace Share

def Positive (s : Share) : Prop := 0 < s.cpuM ∧ 0 < s.memoryMb

def add (s t : Share) : Share := ⟨s.cpuM + t.cpuM, s.memoryMb + t.memoryMb⟩

/-- The CPU quantity of `_resource_block`. -/
def cpuQuantity (s : Share) : String :=
  if s.cpuM % 1000 ≠ 0 then toString s.cpuM ++ "m" else toString (s.cpuM / 1000)

def memQuantity (s : Share) : String := toString s.memoryMb ++ "Mi"

/-- `_resource_block` -/
def block (s : Share) : Json :=
  let q := Json.obj [("cpu", .str s.cpuQuantity), ("memory", .str s.memQuantity)]
  .obj [("requests", q), ("limits", q)]

end Share

/-- `resolve_terminal_percent`, from defaults that are there. -/
def resolveTerminalPercent (defaults : RunnerDefaults) : Int :=
  let value := defaults.terminalResourcePercent
  if value < 0 ∨ 50 < value ∨ value % 5 ≠ 0 then 0 else value

/-- The `grace` of the idle sweep -/
def resolveIdleGrace (spec : TenantSpec) (defaults : RunnerDefaults) : Int :=
  spec.idleGraceSeconds.getD defaults.idleGraceSeconds

/-- The `min_alive` of the idle sweep -/
def resolveMinAlive (spec : TenantSpec) (defaults : RunnerDefaults) : Int :=
  spec.idleMinAliveSeconds.getD defaults.minAliveAfterWakeSeconds

def resourceTotals (spec : TenantSpec) (defaults : RunnerDefaults) : Share :=
  ⟨spec.cpuM.getD defaults.cpuM, spec.memoryMb.getD defaults.memoryMb⟩

def terminalPart (total percent : Int) : Int := min (total - 1) (max 1 (total * percent / 100))

/-- An allocation that `_split_resources` accepts. -/
structure Allocation where
  username : String
  image : String
  pullPolicy : String
  total : Share
  percent : Int
  uid : Int
  gid : Int
  splittable : 0 < percent → 2 ≤ total.cpuM ∧ 2 ≤ total.memoryMb

namespace Allocation

def terminal (a : Allocation) : Share :=
  if a.percent ≤ 0 then ⟨0, 0⟩
  else ⟨terminalPart a.total.cpuM a.percent, terminalPart a.total.memoryMb a.percent⟩

def runner (a : Allocation) : Share :=
  ⟨a.total.cpuM - a.terminal.cpuM, a.total.memoryMb - a.terminal.memoryMb⟩

theorem runner_add_terminal (a : Allocation) : a.runner.add a.terminal = a.total := by
  apply Share.ext
  · exact Int.sub_add_cancel _ _
  · exact Int.sub_add_cancel _ _

theorem terminalPart_pos {total : Int} (percent : Int) (h : 2 ≤ total) :
    0 < terminalPart total percent ∧ terminalPart total percent < total := by
  unfold terminalPart
  omega

theorem positive (a : Allocation) (h : 0 < a.percent) : a.runner.Positive ∧ a.terminal.Positive := by
  obtain ⟨hcpu, hmemory⟩ := a.splittable h
  have hpart : a.terminal = ⟨terminalPart a.total.cpuM a.percent, terminalPart a.total.memoryMb a.percent⟩ :=
    if_neg (by omega)
  obtain ⟨hc, hc'⟩ := terminalPart_pos a.percent hcpu
  obtain ⟨hm, hm'⟩ := terminalPart_pos a.percent hmemory
  unfold Share.Positive runner
  rw [hpart]
  simp only
  omega

/-- `allocation_hash` -/
def hash (a : Allocation) : String :=
  let payload := Json.obj [
    ("version", .int 1),
    ("username", .str a.username),
    ("image", .str a.image),
    ("pullPolicy", .str a.pullPolicy),
    ("runnerResources", a.runner.block),
    ("terminalResources", a.terminal.block),
    ("terminalPercent", .int a.percent),
    ("security", .obj [("uid", .int a.uid), ("gid", .int a.gid)])]
  String.ofList ("v1:".toList ++ Sha256.hexdigest (payload.dumps .compact))

end Allocation

def resolveImage (spec : TenantSpec) (settings : KubernetesSettings) : String :=
  if spec.image = "" then settings.runnerImage else spec.image

def resolveStorageGb (spec : TenantSpec) (defaults : RunnerDefaults) : Int :=
  spec.storageGb.getD defaults.storageGb

/-- The allocation of a tenant, or the `ValueError` of a total that is too small to be split. -/
def resolveAllocation (spec : TenantSpec) (settings : KubernetesSettings) (defaults : RunnerDefaults) :
    Option Allocation :=
  let total := resourceTotals spec defaults
  let percent := resolveTerminalPercent defaults
  if h : 0 < percent → 2 ≤ total.cpuM ∧ 2 ≤ total.memoryMb then
    some
      { username := spec.username
        image := resolveImage spec settings
        pullPolicy := settings.runnerImagePullPolicy
        total := total
        percent := percent
        uid := settings.runnerUid
        gid := settings.runnerGid
        splittable := h }
  else none

end PrivaCloud.Operator
