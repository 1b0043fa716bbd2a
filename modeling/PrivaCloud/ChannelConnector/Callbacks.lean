import PrivaCloud.DataPlane.SchedulerService
import PrivaCloud.DataSpine.ChannelConfig
import PrivaCloud.Framework.Locks

/-!
# Scheduler callbacks

`push_scheduler_callback`: under the lock of the account a callback is looked up in the cache of the
deliveries, checked against the data plane and sent to the owner that the configuration names. A read of the
data plane or a card that is posted is a section of its own.
-/

namespace PrivaCloud.ChannelConnector

open Framework DataPlane
open DataPlane.SchedulerService (getJob getRun)
open DataSpine (ChannelStore FeishuRow RunStatus)

/-- The part of `SchedulerCallbackPayload` that is compared with the ledger. -/
structure CallbackPayload where
  runId : String
  jobId : String
  jobName : String
  jobType : JobType
  status : RunStatus
  deriving DecidableEq

structure CallbackRequest where
  accountId : String
  payload : CallbackPayload
  deriving DecidableEq

/-- The key of a delivery: the account and the run. -/
abbrev DeliveryKey : Type := String × String

def CallbackRequest.key (r : CallbackRequest) : DeliveryKey := (r.accountId, r.payload.runId)

inductive CallbackError
  | unavailable
  | ownerUnbound
  | workerUnavailable
  | deliveryFailed
  | rejected
  | rateLimited
  deriving DecidableEq

/-- The statuses that `_verify_scheduler_callback` lets pass. -/
def terminalStatuses : List RunStatus := [.success, .error, .cancelled]

def callbackEnabled : JobConfig → Bool
  | .agentRun config => config.callback
  | .httpCall config => config.callback
  | .userScript config => config.callback
  | .toolRetry _ => false

/-- `_verify_scheduler_callback`: why a callback is rejected. -/
def verifySchedulerCallback (payload : CallbackPayload) (run : Option JobRunRecord)
    (job : Option ScheduledJobDefinition) : Option String :=
  match run with
  | none => some "scheduled run not found"
  | some run =>
    if run.runId ≠ payload.runId then some "scheduled run id mismatch"
    else if run.jobId ≠ payload.jobId then some "scheduled run job mismatch"
    else if run.jobName ≠ payload.jobName then some "scheduled run name mismatch"
    else if run.status ∉ terminalStatuses then some "scheduled run is not terminal"
    else if run.status ≠ payload.status then some "scheduled run status mismatch"
    else
      match job with
      | none => some "scheduled job not found"
      | some job =>
        if job.id ≠ payload.jobId then some "scheduled job not found"
        else if job.jobConfig.map JobConfig.jobType ≠ some payload.jobType then some "scheduled job type mismatch"
        else if job.jobConfig.any callbackEnabled then none
        else some "feishu callback is not enabled"

def effectiveEnabled (row : FeishuRow) : Bool :=
  row.userEnabled && !row.adminDisabled && row.appId.any (· ≠ "") && row.appSecretEnc.any (· ≠ "")

def ownerOpenId (row : FeishuRow) : Text := strip AskUser.pySpace row.ownerOpenId.toList

structure Card where
  key : DeliveryKey
  receiver : Text

structure CallbackWorld where
  store : Store := {}
  channels : ChannelStore
  /-- the accounts with an armed worker, and the digests with which they were armed -/
  armed : List (String × Option String) := []
  accountLocks : List String := []
  callbackAttempts : List (String × List Nat) := []
  callbackDeliveries : List (DeliveryKey × String) := []
  /-- the cards in the channel, and for whom a card is there that the cache does not have: because the answer
  was lost, or because the delivery was evicted -/
  cards : List Card := []
  unanswered : List DeliveryKey := []
  evicted : List DeliveryKey := []

/-- Nanoseconds. -/
def callbackRateWindow : Nat := 60 * 10 ^ 9

def callbackRateLimit : Nat := 120

def callbackDeliveryCacheMax : Nat := 10000

/-- The newest entries of a dictionary, and the oldest ones for which there is no room. -/
def evictOldest {α : Type} (room : Nat) (d : List α) : List α × List α :=
  (d.drop (d.length - room), d.take (d.length - room))

theorem mem_evictOldest {α : Type} (room : Nat) (d : List α) (a : α) :
    a ∈ d ↔ a ∈ (evictOldest room d).1 ∨ a ∈ (evictOldest room d).2 := by
  conv_lhs => rw [← List.take_append_drop (d.length - room) d]
  rw [List.mem_append]
  exact Or.comm

namespace CallbackWorld

variable (s : CallbackWorld)

/-- `_consume_callback_rate`, and whether the request is within the rate. -/
def consumeCallbackRate (aid : String) (now : Nat) : CallbackWorld × Bool :=
  let attempts := ((getValue s.callbackAttempts aid).getD []).dropWhile fun attempt => attempt + callbackRateWindow ≤ now
  if callbackRateLimit ≤ attempts.length then
    ({ s with callbackAttempts := assign s.callbackAttempts aid attempts }, false)
  else ({ s with callbackAttempts := assign s.callbackAttempts aid (attempts ++ [now]) }, true)

def unlock (aid : String) : CallbackWorld := { s with accountLocks := s.accountLocks.filter (· ≠ aid) }

/-- A delivery goes into the cache, from which the oldest ones are evicted. -/
def deliver (room : Nat) (key : DeliveryKey) (messageId : String) : CallbackWorld :=
  let kept := evictOldest room (assign s.callbackDeliveries key messageId)
  { s with callbackDeliveries := kept.1, evicted := s.evicted ++ kept.2.map Prod.fst }

/-- A card is posted, and its answer arrives or not. -/
def post (card : Card) (answered : Bool) : CallbackWorld :=
  { s with
    cards := s.cards ++ [card]
    unanswered := if answered then s.unanswered else s.unanswered ++ [card.key] }

end CallbackWorld

/-- Where a callback is: before the answer of what it awaits. -/
inductive CallbackCall
  | waiting (r : CallbackRequest)
  | verifying (r : CallbackRequest) (run : Option (Option JobRunRecord)) (job : Option (Option ScheduledJobDefinition))
  | configuring (r : CallbackRequest)
  | sending (r : CallbackRequest) (receiver : Text)
  | sent (r : CallbackRequest) (answer : Option String)
  | delivered (messageId : String)
  | raised (error : CallbackError) (message : String)
  deriving DecidableEq

inductive CallbackInput
  /-- the lock is free, at this time -/
  | lock (now : Nat)
  | readRun
  | readJob
  | readConfig
  /-- the card is in the channel or not, and this is what the caller is told -/
  | post (posted : Bool) (answer : Option String)
  | resume
  | failed

namespace CallbackCall

def raise (s : CallbackWorld) (r : CallbackRequest) (error : CallbackError) (message : String) :
    Option (CallbackWorld × CallbackCall) :=
  some (s.unlock r.accountId, .raised error message)

/-- Both reads of the verification have been answered, or one of them has not. -/
def verified (s : CallbackWorld) (r : CallbackRequest) :
    Option (Option JobRunRecord) → Option (Option ScheduledJobDefinition) → Option (CallbackWorld × CallbackCall)
  | some run, some job =>
    match verifySchedulerCallback r.payload run job with
    | some reason => raise s r .rejected reason
    | none => some (s, .configuring r)
  | run, job => some (s, .verifying r run job)

/-- The checks of the configuration that has been read. -/
def configured (s : CallbackWorld) (r : CallbackRequest) (row : Option FeishuRow) :
    Option (CallbackWorld × CallbackCall) :=
  match row.filter effectiveEnabled with
  | none => raise s r .unavailable "feishu bot is not enabled"
  | some row =>
    if ownerOpenId row = [] then raise s r .ownerUnbound "feishu owner is not bound"
    else
      match getValue s.armed r.accountId with
      | none => raise s r .workerUnavailable "feishu connector is not ready"
      | some digest =>
        if row.desiredDigest.getD "" = "" ∨ row.desiredDigest ≠ digest then
          raise s r .workerUnavailable "feishu configuration is changing"
        else some (s, .sending r (ownerOpenId row))

def act (s : CallbackWorld) (call : CallbackCall) (input : CallbackInput) : Option (CallbackWorld × CallbackCall) :=
  match call, input with
  | .waiting r, .lock now =>
    if r.accountId ∈ s.accountLocks then none
    else
      match (getValue s.callbackDeliveries r.key).filter (· ≠ "") with
      | some messageId => some (s, .delivered messageId)
      | none =>
        let consumed := s.consumeCallbackRate r.accountId now
        if consumed.2 then
          some ({ consumed.1 with accountLocks := r.accountId :: s.accountLocks }, .verifying r none none)
        else some (consumed.1, .raised .rateLimited "scheduler callback rate limit exceeded")
  | .verifying r none job, .readRun => verified s r (some (getRun s.store r.accountId r.payload.runId)) job
  | .verifying r run none, .readJob => verified s r run (some (getJob s.store r.payload.jobId))
  | .verifying r _ _, .failed => raise s r .workerUnavailable "scheduler callback verification unavailable"
  | .configuring r, .readConfig => configured s r (s.channels.feishuGet r.accountId)
  | .configuring r, .failed => raise s r .workerUnavailable "feishu config unavailable"
  | .sending r receiver, .post posted answer =>
    some (if posted then s.post ⟨r.key, receiver⟩ (answer.any (· ≠ "")) else s, .sent r answer)
  | .sent r answer, .resume =>
    match answer.filter (· ≠ "") with
    | none => raise s r .deliveryFailed "feishu card send failed"
    | some messageId => some ((s.deliver callbackDeliveryCacheMax r.key messageId).unlock r.accountId, .delivered messageId)
  | _, _ => none

end CallbackCall

/-- What happens beside the callbacks: writes to the data plane, and passes that arm and tear down workers,
which take the lock of the account. -/
inductive CallbackOutside
  | dataPlane (store : Store) (channels : ChannelStore)
  | rearm (accountId : String) (digest : Option (Option String))

def callbackProgram : Program CallbackWorld CallbackCall CallbackRequest CallbackInput CallbackOutside where
  enter := CallbackCall.waiting
  act := CallbackCall.act
  outside := fun s event =>
    match event with
    | .dataPlane store channels => some { s with store := store, channels := channels }
    | .rearm aid digest =>
      if aid ∈ s.accountLocks then none
      else some { s with armed := match digest with
        | none => s.armed.filter (·.1 ≠ aid)
        | some digest => assign s.armed aid digest }

end PrivaCloud.ChannelConnector
