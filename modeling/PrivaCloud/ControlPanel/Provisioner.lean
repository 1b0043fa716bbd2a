import PrivaCloud.ControlPanel.Administration
import PrivaCloud.Framework.Dict

/-!
# The provisioner

The AgentTenants of the accounts: `ensure_tenant`, the passes of `sync_all_tenants`, which decide by lists read at
their beginning, and the endpoints that create, change, enable and delete accounts.
-/

namespace PrivaCloud.ControlPanel

open Framework

inductive DesiredState
  | active
  | offboarding
  deriving DecidableEq

def desiredStateFor (status : AccountStatus) : DesiredState :=
  if status = .active then .active else .offboarding

/-- `_runtime_defaults_spec`, with the cores in thousandths. -/
structure RuntimeDefaults where
  idleGraceSeconds : Nat := 1800
  minAliveAfterWakeSeconds : Nat := 1800
  cpuMillicores : Nat := 1000
  memoryMb : Nat := 2048
  storageGb : Nat := 1
  terminalResourcePercent : Nat := 0
  terminalMaxSessions : Nat := 2
  terminalIdleTimeoutSeconds : Nat := 1800
  terminalMaxLifetimeSeconds : Nat := 14400
  terminalScaleDownGraceSeconds : Nat := 120
  deriving DecidableEq

/-- The overrides of an account. -/
structure ResourceSpec where
  cpuMillicores : Option Nat := none
  memoryMb : Option Nat := none
  storageGb : Option Nat := none
  deriving DecidableEq

/-- The overrides that are given win. -/
def ResourceSpec.merge (new old : ResourceSpec) : ResourceSpec where
  cpuMillicores := new.cpuMillicores.or old.cpuMillicores
  memoryMb := new.memoryMb.or old.memoryMb
  storageGb := new.storageGb.or old.storageGb

/-- `spec` as the API server has it; a manifest that was applied by hand may lack anything. -/
structure AgentTenantSpec where
  accountId : Option String := none
  username : Option Text := none
  desiredState : Option DesiredState := none
  agentRunnerType : Option RunnerType := none
  runtimeDefaults : Option RuntimeDefaults := none
  resources : ResourceSpec := {}
  deriving DecidableEq

structure AgentTenant where
  name : String
  spec : AgentTenantSpec := {}
  /-- deleted, but not yet released by the operator -/
  deleting : Bool := false
  deriving DecidableEq

/-- The authoritative fields. -/
structure Wanted where
  accountId : String
  username : Text
  runtimeDefaults : RuntimeDefaults
  deriving DecidableEq

namespace Wanted

variable (wanted : Wanted)

def met (spec : AgentTenantSpec) : Bool :=
  spec.accountId = some wanted.accountId && spec.username = some wanted.username &&
    spec.runtimeDefaults = some wanted.runtimeDefaults

def apply (spec : AgentTenantSpec) : AgentTenantSpec :=
  { spec with
    accountId := some wanted.accountId
    username := some wanted.username
    runtimeDefaults := some wanted.runtimeDefaults }

/-- `_tenant_spec`, as the manifest of a new tenant. -/
def manifest (status : AccountStatus) (runnerType : RunnerType) (resources : ResourceSpec) : AgentTenant where
  name := wanted.accountId
  spec := wanted.apply
    { desiredState := some (desiredStateFor status), agentRunnerType := some runnerType, resources := resources }

end Wanted

structure ControlPlane where
  accounts : Accounts
  tenants : Table AgentTenant.name
  /-- the account ids that have been given so far -/
  issued : List String
  runnerDefaults : RuntimeDefaults := {}
  resourceSpecs : List (String × ResourceSpec) := []

namespace ControlPlane

variable (s : ControlPlane)

def hasTenant (name : String) : Bool := (s.tenants.find? name).isSome

/-- `PATCH` of a tenant, if it is there. -/
def patch (name : String) (f : AgentTenantSpec → AgentTenantSpec) : ControlPlane :=
  { s with tenants := s.tenants.modify name (fun t => { t with spec := f t.spec }) fun _ => rfl }

/-- `DELETE` of a tenant, if it is there; the finalizer keeps it. -/
def delete (name : String) : ControlPlane :=
  { s with tenants := s.tenants.modify name (fun t => { t with deleting := true }) fun _ => rfl }

def release (name : String) : ControlPlane :=
  { s with tenants := s.tenants.filter fun t => t.name ≠ name || !t.deleting }

def update (accountId : String) (fields : AccountFields) : ControlPlane :=
  { s with accounts := s.accounts.modify accountId fields.apply fun user => Eq.refl user.accountId }

/-- `accounts.delete` -/
def reap (accountId : String) : ControlPlane :=
  { s with accounts := s.accounts.filter (·.accountId ≠ accountId) }

end ControlPlane

/-- A call is answered, or it raises before or after it has taken effect. -/
inductive CallReply
  | answered
  | refused
  | lost
  deriving DecidableEq

def CallReply.settle {σ : Type} (reply : CallReply) (before after : σ) : σ :=
  match reply with
  | .refused => before
  | .answered | .lost => after

/-- What a pass counts for an account. -/
inductive Tally
  | created
  | repaired
  | unchanged
  | skipped
  | purged
  deriving DecidableEq

/-- The calls of `delete_tenant`, the reaping, `ensure_tenant`, `_repair_existing_tenant`,
`set_tenant_desired_state` and `update_tenant_runtime`. -/
inductive TenantCall
  | deleting (accountId : String)
  | reaping (accountId : String)
  | creating (wanted : Wanted) (status : AccountStatus) (runnerType : RunnerType) (resources : ResourceSpec)
  | reading (wanted : Wanted) (tally : Tally) (converge : Option DesiredState)
  | patching (wanted : Wanted) (tally : Tally) (converge : Option DesiredState)
  | converging (accountId : String) (desired : DesiredState)
  | adjusting (accountId : String) (runnerType : Option RunnerType) (resources : ResourceSpec)

inductive TenantNext
  | call (next : TenantCall)
  | done (tally : Tally)
  | raised

namespace TenantCall

/-- A repaired tenant, of which the desired state may still be another one. -/
def repaired (wanted : Wanted) (tally : Tally) : Option DesiredState → TenantNext
  | none => .done tally
  | some desired => .call (.converging wanted.accountId desired)

def exec (s : ControlPlane) (reply : CallReply) : TenantCall → ControlPlane × TenantNext
  | .deleting accountId =>
    (reply.settle s (s.delete accountId), if reply = .answered then .done .skipped else .raised)
  | .reaping accountId =>
    (reply.settle s (s.reap accountId), if reply = .answered then .done .purged else .raised)
  | .creating wanted status runnerType resources =>
    match s.tenants.insert (wanted.manifest status runnerType resources) with
    | none => (s, if reply = .answered then .call (.reading wanted .created none) else .raised)
    | some tenants =>
      (reply.settle s { s with tenants := tenants }, if reply = .answered then .done .created else .raised)
  | .reading wanted tally converge =>
    if reply = .answered then
      match s.tenants.find? wanted.accountId with
      | none => (s, .raised)
      | some tenant =>
        if tenant.spec.accountId.any fun id => id ≠ "" && id ≠ wanted.accountId then (s, .raised)
        else if wanted.met tenant.spec then (s, repaired wanted tally converge)
        else (s, .call (.patching wanted tally converge))
    else (s, .raised)
  | .patching wanted tally converge =>
    (reply.settle s (s.patch wanted.accountId wanted.apply),
      if reply = .answered ∧ s.hasTenant wanted.accountId then repaired wanted tally converge else .raised)
  | .converging accountId desired =>
    (reply.settle s (s.patch accountId fun spec => { spec with desiredState := some desired }),
      if reply = .answered then .done .repaired else .raised)
  | .adjusting accountId runnerType resources =>
    (reply.settle s (s.patch accountId fun spec =>
      { spec with agentRunnerType := runnerType.or spec.agentRunnerType, resources := resources.merge spec.resources }),
      if reply = .answered ∧ s.hasTenant accountId then .done .repaired else .raised)

end TenantCall

structure SyncLists where
  runtimeDefaults : RuntimeDefaults
  resources : List (String × ResourceSpec)
  existing : List AgentTenant

namespace SyncLists

variable (lists : SyncLists)

def tenant (accountId : String) : Option AgentTenant := lists.existing.find? (·.name = accountId)

/-- What a pass does for an account: nothing but a count, or its first call. -/
def plan (user : UserRecord) : Tally ⊕ TenantCall :=
  let wanted : Wanted := ⟨user.accountId, user.username, lists.runtimeDefaults⟩
  if user.accountId = "" then .inl .skipped
  else if user.status = .purged then
    match lists.tenant user.accountId with
    | some _ => .inr (.deleting user.accountId)
    | none => .inr (.reaping user.accountId)
  else
    match lists.tenant user.accountId with
    | some obj =>
      let desired := desiredStateFor user.status
      let converge := if obj.spec.desiredState.getD .active = desired then none else some desired
      if wanted.met obj.spec then
        match converge with
        | none => .inl .unchanged
        | some desired => .inr (.converging user.accountId desired)
      else .inr (.reading wanted .repaired converge)
    | none =>
      if user.status ≠ .active then .inl .skipped
      else
        .inr (.creating wanted user.status user.agentRunnerType
          ((getValue lists.resources user.accountId).getD {}))

end SyncLists

def TenantCall.caught : TenantCall → Bool
  | .deleting _ | .reaping _ | .converging _ _ => true
  | _ => false

inductive AccountAction
  | delete
  | enable
  | update (update : UserUpdate) (resources : ResourceSpec)
  deriving DecidableEq

namespace AccountAction

/-- The last admin protection asks for the number of administrators. -/
def guards (action : AccountAction) (existing : UserRecord) : Bool :=
  match action with
  | .delete => existing.activeAdmin
  | .enable => false
  | .update body _ => body.demotes && existing.activeAdmin

/-- The columns that are written, if the store takes them. -/
def fields (existing : UserRecord) (made : Generated) : AccountAction → Option AccountFields
  | .delete => some { status := some .purged }
  | .enable => some { status := some .active }
  | .update body _ => body.fields existing made

end AccountAction

structure NewUser where
  username : Text
  role : Role := .user
  runnerType : RunnerType := .autoScale
  passwordEpoch : Text := []
  resources : Option ResourceSpec := none

inductive LifecycleRequest
  /-- `create_user`, `setup_admin`, and `approve_registration`, which has resources -/
  | createUser (new : NewUser)
  | deleteUser (username current : Text)
  | enableUser (username : Text)
  | updateUser (username : Text) (update : UserUpdate) (resources : ResourceSpec)
  | syncAllTenants (defaults : Option RuntimeDefaults)

inductive LifecycleCall
  | creatingUser (new : NewUser)
  | specifying (user : UserRecord) (resources : ResourceSpec)
  | defaulting (user : UserRecord) (resources : ResourceSpec)
  | looking (action : AccountAction) (username : Text)
  | guarding (action : AccountAction) (existing : UserRecord) (again : Bool)
  | resolving (action : AccountAction) (existing : UserRecord)
  | writing (action : AccountAction) (existing : UserRecord) (accountId : String)
  | setting (accountId : String) (runnerType : Option RunnerType) (resources : ResourceSpec)
  | requesting (call : TenantCall) (code failed : Nat)
  | readingDefaults
  | listingResources (defaults : RuntimeDefaults)
  | listingTenants (defaults : RuntimeDefaults) (resources : List (String × ResourceSpec))
  | listingUsers (lists : SyncLists)
  | syncing (lists : SyncLists) (tallies : List Tally) (call : TenantCall) (users : List UserRecord)
  | synced (tallies : List Tally)
  | ended (code : Nat) (detail : String)

structure LifecycleInput where
  reply : CallReply := .answered
  made : Generated := {}

namespace LifecycleCall

def seek (lists : SyncLists) (tallies : List Tally) : List UserRecord → LifecycleCall
  | [] => .synced tallies
  | user :: users =>
    match lists.plan user with
    | .inl tally => seek lists (tallies ++ [tally]) users
    | .inr call => .syncing lists tallies call users

def proceed (lists : SyncLists) (tallies : List Tally) (call : TenantCall) (users : List UserRecord) :
    TenantNext → LifecycleCall
  | .call next => .syncing lists tallies next users
  | .done tally => seek lists (tallies ++ [tally]) users
  | .raised => if call.caught then seek lists (tallies ++ [.skipped]) users else .ended 500 ""

def lastAdmin : LifecycleCall := .ended 400 "Cannot remove the last admin"

/-- The check of the runner type, which comes after the first guard. -/
def validated (action : AccountAction) (next : LifecycleCall) : LifecycleCall :=
  match action with
  | .update update _ =>
    if update.agentRunnerType.any fun type => (runnerTypeOf type).isNone then
      .ended 400 "Invalid agent_runner_type"
    else next
  | .delete | .enable => next

/-- After `get_user`. -/
def looked (action : AccountAction) (existing : UserRecord) : LifecycleCall :=
  if action = .enable ∧ existing.status = .purged then .ended 400 "Account is being purged"
  else if action.guards existing then .guarding action existing false
  else validated action (.resolving action existing)

/-- After a guard; an update has a second one. -/
def guarded (action : AccountAction) (existing : UserRecord) (again : Bool) : LifecycleCall :=
  match action, again with
  | .update _ _, false => validated action (.guarding action existing true)
  | _, _ => .resolving action existing

def written (action : AccountAction) (existing : UserRecord) (accountId : String) : LifecycleCall :=
  match action with
  | .delete => .requesting (.deleting existing.accountId) 202 502
  | .enable => .requesting (.converging accountId .active) 200 200
  | .update update resources =>
    let runnerType := update.agentRunnerType.bind runnerTypeOf
    if resources ≠ {} then .setting accountId runnerType resources
    else if runnerType.isSome then .requesting (.adjusting accountId runnerType resources) 200 200
    else .ended 200 ""

/-- After a call of an endpoint, which ends with one of two codes. -/
def requested (code failed : Nat) : TenantNext → LifecycleCall
  | .call next => .requesting next code failed
  | .done _ => .ended code ""
  | .raised => .ended failed ""

def enter : LifecycleRequest → LifecycleCall
  | .createUser new => .creatingUser new
  | .deleteUser username current =>
    if username = current then .ended 400 "Cannot delete your own account" else .looking .delete username
  | .enableUser username => .looking .enable username
  | .updateUser username update resources => .looking (.update update resources) username
  | .syncAllTenants none => .readingDefaults
  | .syncAllTenants (some defaults) => .listingResources defaults

def answer (s : ControlPlane) (reply : CallReply) (next : LifecycleCall) : Option (ControlPlane × LifecycleCall) :=
  some (s, if reply = .answered then next else .ended 500 "")

def settle (s after : ControlPlane) (reply : CallReply) (next : LifecycleCall) :
    Option (ControlPlane × LifecycleCall) :=
  some (reply.settle s after, if reply = .answered then next else .ended 500 "")

def act (s : ControlPlane) (call : LifecycleCall) (input : LifecycleInput) : Option (ControlPlane × LifecycleCall) :=
  match call with
  | .creatingUser new =>
    -- `uuid4` gives an id that has not been given before
    if input.made.accountId ∈ s.issued ∨ input.made.accountId = "" then none
    else
      let user : UserRecord :=
        { accountId := input.made.accountId
          username := new.username
          role := new.role
          agentRunnerType := new.runnerType
          passwordEpoch := new.passwordEpoch }
      match s.accounts.createUser user with
      | none => answer s input.reply (.ended 400 "User already exists")
      | some accounts =>
        settle s { s with accounts := accounts, issued := user.accountId :: s.issued } input.reply
          (match new.resources with
            | none => .defaulting user {}
            | some resources => .specifying user resources)
  | .specifying user resources =>
    settle s { s with resourceSpecs := assign s.resourceSpecs user.accountId resources } input.reply
      (.defaulting user resources)
  | .defaulting user resources =>
    answer s input.reply
      (.requesting (.creating ⟨user.accountId, user.username, s.runnerDefaults⟩ .active user.agentRunnerType resources)
        200 200)
  | .looking action username =>
    answer s input.reply
      (match s.accounts.getUser username with
        | none => .ended 404 "User not found"
        | some existing => looked action existing)
  | .guarding action existing again =>
    answer s input.reply
      (if s.accounts.activeAdminCount ≤ 1 then lastAdmin else guarded action existing again)
  | .resolving action existing =>
    answer s input.reply
      (match s.accounts.getUser existing.username with
        | none => .ended 400 "User not found"
        | some rec => .writing action existing rec.accountId)
  | .writing action existing accountId =>
    match s.accounts.find? accountId, action.fields existing input.made with
    | some _, some fields =>
      settle s (s.update accountId fields) input.reply (written action existing accountId)
    | _, _ => answer s input.reply (.ended 400 "")
  | .setting accountId runnerType resources =>
    settle s
      { s with
        resourceSpecs := assign s.resourceSpecs accountId
          (resources.merge ((getValue s.resourceSpecs accountId).getD {})) }
      input.reply (.requesting (.adjusting accountId runnerType resources) 200 200)
  | .requesting call code failed =>
    some ((call.exec s input.reply).1, requested code failed (call.exec s input.reply).2)
  | .readingDefaults => answer s input.reply (.listingResources s.runnerDefaults)
  | .listingResources defaults => answer s input.reply (.listingTenants defaults s.resourceSpecs)
  | .listingTenants defaults resources =>
    answer s input.reply (.listingUsers ⟨defaults, resources, s.tenants.rows⟩)
  | .listingUsers lists => answer s input.reply (seek lists [] s.accounts.rows)
  | .syncing lists tallies call users =>
    some ((call.exec s input.reply).1, proceed lists tallies call users (call.exec s input.reply).2)
  | .synced _ | .ended _ _ => none

end LifecycleCall

/-- What happens beside the requests. -/
inductive LifecycleOutside
  | release (name : String)
  | setDefaults (defaults : RuntimeDefaults)

def lifecycleProgram : Program ControlPlane LifecycleCall LifecycleRequest LifecycleInput LifecycleOutside where
  enter := LifecycleCall.enter
  act := LifecycleCall.act
  outside := fun s event =>
    match event with
    | .release name => some (s.release name)
    | .setDefaults defaults => some { s with runnerDefaults := defaults }

end PrivaCloud.ControlPanel
