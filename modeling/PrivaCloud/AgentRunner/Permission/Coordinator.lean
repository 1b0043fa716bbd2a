import Mathlib.Logic.Function.Basic
import Mathlib.Tactic.Common

/-!
# Permission coordinators

`permission_coordinator.PermissionCoordinator`: the futures of one run that a tool call waits on
until a user answers, a timeout expires or the run is cancelled. A future is named by the request
id that it was created with.
-/

namespace PrivaCloud.AgentRunner

inductive PermissionMode
  | default
  | acceptEdits
  | plan
  | bypassPermissions
  deriving DecidableEq

inductive PermissionResult (Input : Type)
  | allow (updatedInput : Option Input)
  | deny (message : String)

/-- An `asyncio.Future` of the coordinator. A timeout cancels the future it waits on. -/
inductive PermissionFuture (Input : Type)
  | absent
  | pending
  | done (result : PermissionResult Input)
  | cancelled

inductive SettledState
  | resolved
  | timeout
  | cancelled

inductive Decision
  | allow
  | deny

/-- `_MAX_SETTLED_REQUESTS` -/
def maxSettledRequests : Nat := 256

structure PermissionCoordinator (Input : Type) where
  /-- The keys of `pending`, oldest first; `pending_requests` has the same keys. -/
  pending : List String := []
  futures : String → PermissionFuture Input := fun _ => .absent
  settledRequests : List (String × SettledState) := []

namespace PermissionCoordinator

variable {Input : Type}

/-- `_mark_settled`: an old key keeps its place, and the oldest keys go first. -/
def markSettled (k : PermissionCoordinator Input) (requestId : String) (state : SettledState) :
    PermissionCoordinator Input :=
  let settled := if requestId ∈ k.settledRequests.map (·.1)
    then k.settledRequests.map fun p => if p.1 = requestId then (requestId, state) else p
    else k.settledRequests ++ [(requestId, state)]
  { k with settledRequests := settled.drop (settled.length - maxSettledRequests) }

def setFuture (k : PermissionCoordinator Input) (requestId : String)
    (f : PermissionFuture Input) : PermissionCoordinator Input :=
  { k with futures := Function.update k.futures requestId f }

/-- The part of `request_permission` before its first await. -/
def createRequest (k : PermissionCoordinator Input) (requestId : String) : PermissionCoordinator Input :=
  { k.setFuture requestId .pending with pending := k.pending ++ [requestId] }

/-- The `finally` block of `request_permission`. -/
def popRequest (k : PermissionCoordinator Input) (requestId : String) : PermissionCoordinator Input :=
  { k with pending := k.pending.filter (· ≠ requestId) }

/-- The timeout of `request_permission`. -/
def expireRequest (k : PermissionCoordinator Input) (requestId : String) : PermissionCoordinator Input :=
  (k.setFuture requestId .cancelled).markSettled requestId .timeout

def answer (decision : Decision) (message : String) (updatedInput : Option Input) : PermissionResult Input :=
  match decision with
  | .allow => .allow updatedInput
  | .deny => .deny (if message = "" then "User denied permission" else message)

def resolve (k : PermissionCoordinator Input) (requestId : String) (decision : Decision)
    (message : String) (updatedInput : Option Input) :
    Except String (Bool × PermissionCoordinator Input) :=
  match k.pending.contains requestId, k.futures requestId with
  | true, .pending =>
    .ok (true, (k.markSettled requestId .resolved).setFuture requestId
      (.done (answer decision message updatedInput)))
  | _, _ =>
    if requestId ∈ k.settledRequests.map (·.1) then .ok (false, k)
    else .error ("No pending permission request: " ++ requestId)

/-- The loop of `cancel_all` over one key. -/
def cancelRequest (k : PermissionCoordinator Input) (requestId : String) : PermissionCoordinator Input :=
  match k.futures requestId with
  | .pending => (k.markSettled requestId .cancelled).setFuture requestId
      (.done (.deny "Stream cancelled"))
  | _ => k

def cancelAll (k : PermissionCoordinator Input) : PermissionCoordinator Input :=
  { k.pending.foldl cancelRequest k with pending := [] }

end PermissionCoordinator

end PrivaCloud.AgentRunner
