import PrivaCloud.Operator.Handlers

/-!
# The cluster of a tenant

What the API server and the storage backend answer to the handlers. The Deployments alone are a system of their own,
in which the environment says whether a teardown has begun; the whole cluster has the purge record and the volume.
-/

namespace PrivaCloud.Operator

open Framework

structure Oracle where
  /-- the call raises before it has an effect -/
  raised : Bool := false
  teardown : Bool := false
  podIp : Option String := none
  health : Option Health := none
  drained : Bool := false
  accepted : Bool := true
  now : Int := 0

/-- The two Deployments and the versions that the API server has given. -/
structure Deployments where
  runner : Option Deployment := none
  terminal : Option Deployment := none
  version : Nat := 0

namespace Deployments

def get (s : Deployments) : Component → Option Deployment
  | .runner => s.runner
  | .terminal => s.terminal

/-- A write gives the object a new version. -/
def put (s : Deployments) (c : Component) (template : Template) (replicas : Nat) : Deployments :=
  let d : Deployment := ⟨template, replicas, s.version + 1⟩
  match c with
  | .runner => { s with runner := some d, version := s.version + 1 }
  | .terminal => { s with terminal := some d, version := s.version + 1 }

/-- A create of what is there is ignored. -/
def create (s : Deployments) (c : Component) (template : Template) : Deployments :=
  match s.get c with
  | some _ => s
  | none => s.put c template 0

/-- A replacement of an older version is ignored; one of what is not there raises. -/
def replace (s : Deployments) (c : Component) (template : Template) (replicas resourceVersion : Nat) :
    Deployments × Option Unit :=
  match s.get c with
  | none => (s, none)
  | some d =>
    if d.resourceVersion = resourceVersion then (s.put c template replicas, some ()) else (s, some ())

def scale (s : Deployments) (c : Component) (replicas : Nat) : Deployments × Option Unit :=
  match s.get c with
  | none => (s, none)
  | some d => (s.put c d.template replicas, some ())

def patchResources (s : Deployments) (c : Component) (resources : Share) : Deployments × Option Unit :=
  match s.get c with
  | none => (s, none)
  | some d => (s.put c { d.template with resources := resources } d.replicas, some ())

def exec (s : Deployments) (op : OperatorOp) (o : Oracle) : Deployments × Option op.Reply :=
  if o.raised then (s, none)
  else
    match op with
    | .teardownStarted _ _ => (s, some o.teardown)
    | .read c => (s, some (s.get c))
    | .create c template => (s.create c template, some ())
    | .replace c template replicas resourceVersion => s.replace c template replicas resourceVersion
    | .scale c replicas => s.scale c replicas
    | .patchResources c resources => s.patchResources c resources
    | .readyPod _ => (s, some o.podIp)
    | .health _ _ => (s, some o.health)
    | .drain _ _ => (s, some o.drained)
    | .setQuota _ => (s, some o.accepted)
    | .clock => (s, some o.now)
    | .deleteExportClaim => (s, some o.accepted)
    | .raise _ => (s, none)
    | .provision _ | .createService _ | .setCrStatus | .renderManagedPolicy | .recordPurging _
    | .deprovision => (s, some ())

/-- The calls that change a Deployment. -/
def isWrite : OperatorOp → Bool
  | .create _ _ | .replace _ _ _ _ | .scale _ _ | .patchResources _ _ => true
  | _ => false

theorem exec_read (s : Deployments) (op : OperatorOp) (o : Oracle) (h : isWrite op = false) :
    (s.exec op o).1 = s := by
  unfold exec
  split
  · rfl
  · cases op <;> first | rfl | cases h

end Deployments

structure TenantCluster where
  deployments : Deployments := {}
  /-- `_purging` of the account -/
  purging : Option String := none
  volume : Bool := false
  /-- the deprovisioning of the volume has begun -/
  deprovisioned : Bool := false

namespace TenantCluster

def exec (s : TenantCluster) (op : OperatorOp) (o : Oracle) : TenantCluster × Option op.Reply :=
  match op with
  | .teardownStarted uid deleting =>
    if o.raised then (s, none) else (s, some (s.purging = some uid || deleting))
  | .recordPurging uid => ({ s with purging := some uid }, some ())
  | .deprovision =>
    -- a call that raises may have begun
    if o.raised then ({ s with deprovisioned := true }, none)
    else ({ s with volume := false, deprovisioned := true }, some ())
  | .provision _ => if o.raised then (s, none) else ({ s with volume := true }, some ())
  | op =>
    let done := s.deployments.exec op o
    ({ s with deployments := done.1 }, done.2)

end TenantCluster

end PrivaCloud.Operator
