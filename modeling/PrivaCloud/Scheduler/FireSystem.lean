import Mathlib.Logic.Function.Basic
import PrivaCloud.DataSpine.RunLedger
import PrivaCloud.Framework.Run

/-!
# Fires, pods and sweeps around the run ledger

`SchedulerEngine.fire` from its claim on, `WakeDialDispatcher.dispatch`, the admission and the outcome write
of the pod, and `reconcile.sweep_once`, cut at the calls into the data plane and at the network: a request may
be admitted although its reply is lost.
-/

namespace PrivaCloud.Scheduler

open Framework DataSpine

structure SchedulerSettings where
  wakeRetryAttempts : Nat := 5
  runningCeilingSeconds : Nat := 7200

inductive FirePhase
  | claimed
  | checking
  | skipping (status : RunStatus) (reason : String)
  | starting
  | dispatching (runId : String) (attempt : Nat)
  | posted (runId : String) (attempt : Nat)
  | capped (runId : String) (attempt : Nat)
  | finishing (runId : String) (status : RunStatus) (reason : String)
  | ended
  deriving DecidableEq

def FirePhase.closing? : FirePhase → Option RunStatus
  | .skipping status _ | .finishing _ status _ => some status
  | .claimed | .checking | .starting | .dispatching .. | .posted .. | .capped .. | .ended => none

structure Fire where
  accountId : String
  jobId : String
  jobName : String
  phase : FirePhase
  sent : Nat := 0

namespace Fire

def runId? (fire : Fire) : Option String :=
  match fire.phase with
  | .dispatching runId _ | .posted runId _ | .capped runId _ | .finishing runId _ _ => some runId
  | .claimed | .checking | .skipping _ _ | .starting | .ended => none

def moveTo (fire : Fire) (phase : FirePhase) : Fire := { fire with phase := phase }

end Fire

/-- The next attempt of `dispatch`, or `DispatchError('wake_failed')`. -/
def retry (settings : SchedulerSettings) (runId : String) (attempt : Nat) : FirePhase :=
  if attempt < settings.wakeRetryAttempts then .dispatching runId (attempt + 1)
  else .finishing runId .error "wake_failed"

/-- A `ScheduledRunRequest` on the network, by the fire and the number of the post. -/
structure Post where
  fire : Nat
  number : Nat
  accountId : String
  jobId : String
  runId : String
  deriving DecidableEq

/-- 202, 409 and 429 -/
inductive Reply
  | accepted
  | jobOverlap
  | concurrencyCap
  deriving DecidableEq

inductive PodRunPhase
  | executing
  | writing (rec : JobRunRecord)
  | ended
  deriving DecidableEq

structure PodRun where
  jobId : String
  phase : PodRunPhase

/-- `_accepted` of the pod of an account. -/
structure Pod where
  accepted : Dict String PodRun := ∅

namespace Pod

/-- `live_run_for_job`: the record stays live until the outcome has been written. -/
def liveJob (pod : Pod) (jobId : String) : Prop :=
  ∃ run ∈ pod.accepted.values, run.jobId = jobId ∧ run.phase ≠ .ended

instance (pod : Pod) (jobId : String) : Decidable (pod.liveJob jobId) :=
  inferInstanceAs (Decidable (∃ run ∈ pod.accepted.values, _))

/-- The endpoint `scheduled_run`, at the gates that it checks again after its await. -/
def scheduledRun (pod : Pod) (runId jobId : String) (capReached : Bool) : Reply × Pod :=
  if (pod.accepted.lookup runId).isSome then (.accepted, pod)
  else if pod.liveJob jobId then (.jobOverlap, pod)
  else if capReached then (.concurrencyCap, pod)
  else (.accepted, { pod with accepted := pod.accepted.insert runId ⟨jobId, .executing⟩ })

def setRun (pod : Pod) (runId : String) (run : PodRun) : Pod :=
  { pod with accepted := pod.accepted.insert runId run }

end Pod

/-- A pass of `sweep_once`: the accounts still to list and the listed runs still to close. -/
structure Sweep where
  now : Nat
  accounts : List String
  runs : List RunRow := []

structure SchedulerSystem where
  ledger : RunLedger := {}
  fires : List Fire := []
  posts : List Post := []
  replies : List (Nat × Nat × Reply) := []
  pods : String → Pod := fun _ => {}
  /-- the runs that a pod has admitted, of all times -/
  admitted : List String := []
  sweeps : List Sweep := []

inductive SchedulerEvent
  | fireClaimed (accountId jobId jobName : String)
  | accountRead (f : Nat) (status : Option Bool)
  | latestRead (f : Nat) (dispatchable : Bool)
  | skipRecorded (f : Nat) (runId : String) (now : Nat)
  | skipLost (f : Nat)
  | runStarted (f : Nat) (runId : String) (now : Nat)
  | startLost (f : Nat)
  | attemptFailed (f : Nat)
  | posted (f : Nat)
  | replied (f : Nat) (reply : Reply)
  | windowClosed (f : Nat)
  | finishWritten (f : Nat) (now : Nat)
  | finishLost (f : Nat)
  | podHandles (post : Post) (capReached : Bool)
  | podEnds (accountId : String) (rec : JobRunRecord)
  | podWrites (accountId runId : String)
  | podCloses (accountId runId : String)
  | podForgets (accountId runId : String)
  | podRestarts (accountId : String)
  | sweepBegins (now : Nat) (accounts : List String)
  | sweepLists (w : Nat)
  | sweepReaps (w : Nat)
  | sweepMisses (w : Nat)

def SchedulerEvent.fire? : SchedulerEvent → Option Nat
  | .accountRead f _ | .latestRead f _ | .skipRecorded f _ _ | .skipLost f | .runStarted f _ _
  | .startLost f | .attemptFailed f | .posted f | .replied f _ | .windowClosed f
  | .finishWritten f _ | .finishLost f => some f
  | .fireClaimed .. | .podHandles .. | .podEnds .. | .podWrites .. | .podCloses .. | .podForgets ..
  | .podRestarts _ | .sweepBegins .. | .sweepLists _ | .sweepReaps _ | .sweepMisses _ => none

namespace SchedulerSystem

def setFire (s : SchedulerSystem) (f : Nat) (fire : Fire) : SchedulerSystem :=
  { s with fires := s.fires.set f fire }

def setPod (s : SchedulerSystem) (accountId : String) (pod : Pod) : SchedulerSystem :=
  { s with pods := Function.update s.pods accountId pod }

def setSweep (s : SchedulerSystem) (w : Nat) (sweep : Sweep) : SchedulerSystem :=
  { s with sweeps := s.sweeps.set w sweep }

/-- The record of `_record_skip` and of `_finish`. -/
def closedRecord (fire : Fire) (runId : String) (now : Nat) (status : RunStatus) (reason : String) :
    JobRunRecord :=
  { runId := runId, jobId := fire.jobId, jobName := fire.jobName, startedAt := now
    finishedAt := some now, status := status, isError := status = .error
    errorMessage := some reason }

def runningRecord (fire : Fire) (runId : String) (now : Nat) : JobRunRecord :=
  { runId := runId, jobId := fire.jobId, jobName := fire.jobName, startedAt := now }

def reapRecord (sweep : Sweep) (run : RunRow) : JobRunRecord :=
  { runId := run.runId, jobId := run.jobId.getD "", jobName := run.jobName
    finishedAt := some sweep.now, status := .error, isError := true
    errorMessage := some "dispatch_lost" }

def checkLatest (s : SchedulerSystem) (fire : Fire) (dispatchable : Bool) : FirePhase :=
  if (s.ledger.runGetLatest fire.accountId fire.jobId).any (·.status = .running) then
    .skipping .skipped "already_running"
  else if dispatchable then .starting
  else .skipping .error "invalid_job_config"

/-- The verdict of a reply; at the cap `dispatch` posts again within its window. -/
def answer (runId : String) (attempt : Nat) : Reply → FirePhase
  | .accepted => .ended
  | .jobOverlap => .finishing runId .skipped "already_running"
  | .concurrencyCap => .capped runId attempt

/-- The id of a new run: `uuid4` does not repeat. -/
def Unused (s : SchedulerSystem) (runId : String) : Prop :=
  runId ≠ "" ∧ (∀ row ∈ s.ledger.rows, row.runId ≠ runId) ∧ runId ∉ s.admitted

instance (s : SchedulerSystem) (runId : String) : Decidable (s.Unused runId) :=
  inferInstanceAs (Decidable (_ ∧ _ ∧ _))

/-- The runs of an account that a sweep closes: running since before the ceiling. -/
def stale (settings : SchedulerSettings) (s : SchedulerSystem) (now : Nat) (accountId : String) : List RunRow :=
  (s.ledger.runList accountId .running 200).filter fun row =>
    row.startedAt + settings.runningCeilingSeconds < now

def stepFire (settings : SchedulerSettings) (s : SchedulerSystem) (f : Nat) (fire : Fire) :
    SchedulerEvent → Option SchedulerSystem
  | .accountRead _ status =>
    match fire.phase, status with
    | .claimed, none => some (s.setFire f (fire.moveTo .ended))
    | .claimed, some true => some (s.setFire f (fire.moveTo .checking))
    | .claimed, some false => some (s.setFire f (fire.moveTo (.skipping .skipped "account_disabled")))
    | _, _ => none
  | .latestRead _ dispatchable =>
    match fire.phase with
    | .checking => some (s.setFire f (fire.moveTo (s.checkLatest fire dispatchable)))
    | _ => none
  | .skipRecorded _ runId now =>
    match fire.phase with
    | .skipping status reason =>
      if s.Unused runId then
        some { s.setFire f (fire.moveTo .ended) with
          ledger := s.ledger.recordRun fire.accountId (closedRecord fire runId now status reason) }
      else none
    | _ => none
  | .skipLost _ =>
    match fire.phase with
    | .skipping _ _ => some (s.setFire f (fire.moveTo .ended))
    | _ => none
  | .runStarted _ runId now =>
    match fire.phase with
    | .starting =>
      if s.Unused runId then
        (s.ledger.startRun fire.accountId (runningRecord fire runId now)).map fun ledger =>
          { s.setFire f (fire.moveTo (retry settings runId 0)) with ledger := ledger }
      else none
    | _ => none
  | .startLost _ =>
    match fire.phase with
    | .starting => some (s.setFire f (fire.moveTo .ended))
    | _ => none
  | .attemptFailed _ =>
    match fire.phase with
    | .dispatching runId attempt | .posted runId attempt =>
      some (s.setFire f (fire.moveTo (retry settings runId attempt)))
    | _ => none
  | .posted _ =>
    match fire.phase with
    | .dispatching runId attempt | .capped runId attempt =>
      some { s.setFire f { fire with phase := .posted runId attempt, sent := fire.sent + 1 } with
        posts := ⟨f, fire.sent + 1, fire.accountId, fire.jobId, runId⟩ :: s.posts }
    | _ => none
  | .replied _ reply =>
    match fire.phase with
    | .posted runId attempt =>
      if (f, fire.sent, reply) ∈ s.replies then
        some { s.setFire f (fire.moveTo (answer runId attempt reply)) with
          replies := s.replies.erase (f, fire.sent, reply) }
      else none
    | _ => none
  | .windowClosed _ =>
    match fire.phase with
    | .capped runId _ =>
      some (s.setFire f (fire.moveTo (.finishing runId .skipped "concurrency_cap")))
    | _ => none
  | .finishWritten _ now =>
    match fire.phase with
    | .finishing runId status reason =>
      some { s.setFire f (fire.moveTo .ended) with
        ledger := s.ledger.finishRun (closedRecord fire runId now status reason) }
    | _ => none
  | .finishLost _ =>
    match fire.phase with
    | .finishing _ _ _ => some (s.setFire f (fire.moveTo .ended))
    | _ => none
  | _ => none

def stepPod (s : SchedulerSystem) (accountId runId : String) (run : PodRun) :
    SchedulerEvent → Option SchedulerSystem
  | .podEnds _ rec =>
    if run.phase = .executing ∧ rec.status ≠ .running then
      some (s.setPod accountId ((s.pods accountId).setRun runId ⟨run.jobId, .writing rec⟩))
    else none
  | .podWrites _ _ =>
    match run.phase with
    | .writing rec => some { s with ledger := s.ledger.finishRun rec }
    | _ => none
  | .podCloses _ _ =>
    match run.phase with
    | .writing _ => some (s.setPod accountId ((s.pods accountId).setRun runId ⟨run.jobId, .ended⟩))
    | _ => none
  | .podForgets _ _ =>
    if run.phase = .ended then
      some (s.setPod accountId { accepted := (s.pods accountId).accepted.erase runId })
    else none
  | _ => none

def stepSweep (settings : SchedulerSettings) (s : SchedulerSystem) (w : Nat) (sweep : Sweep) :
    SchedulerEvent → Option SchedulerSystem
  | .sweepLists _ =>
    match sweep.runs, sweep.accounts with
    | [], accountId :: accounts =>
      some (s.setSweep w ⟨sweep.now, accounts, stale settings s sweep.now accountId⟩)
    | _, _ => none
  | .sweepReaps _ =>
    match sweep.runs with
    | run :: runs =>
      some { s.setSweep w ⟨sweep.now, sweep.accounts, runs⟩ with
        ledger := s.ledger.finishRun (reapRecord sweep run) }
    | [] => none
  | .sweepMisses _ =>
    match sweep.runs with
    | _ :: runs => some (s.setSweep w ⟨sweep.now, sweep.accounts, runs⟩)
    | [] => none
  | _ => none

def step (settings : SchedulerSettings) (s : SchedulerSystem) (e : SchedulerEvent) : Option SchedulerSystem :=
  match e with
  | .fireClaimed accountId jobId jobName =>
    some { s with fires := s.fires ++ [⟨accountId, jobId, jobName, .claimed, 0⟩] }
  | .accountRead f _ | .latestRead f _ | .skipRecorded f _ _ | .skipLost f | .runStarted f _ _
  | .startLost f | .attemptFailed f | .posted f | .replied f _ | .windowClosed f
  | .finishWritten f _ | .finishLost f =>
    match s.fires[f]? with
    | some fire => stepFire settings s f fire e
    | none => none
  | .podHandles post capReached =>
    if post ∈ s.posts then
      let (reply, pod) := (s.pods post.accountId).scheduledRun post.runId post.jobId capReached
      some { s.setPod post.accountId pod with
        posts := s.posts.erase post
        replies := (post.fire, post.number, reply) :: s.replies
        admitted := if reply = .accepted ∧ (s.pods post.accountId).accepted.lookup post.runId = none
          then post.runId :: s.admitted else s.admitted }
    else none
  | .podEnds accountId rec =>
    match (s.pods accountId).accepted.lookup rec.runId with
    | some run => stepPod s accountId rec.runId run e
    | none => none
  | .podWrites accountId runId | .podCloses accountId runId | .podForgets accountId runId =>
    match (s.pods accountId).accepted.lookup runId with
    | some run => stepPod s accountId runId run e
    | none => none
  | .podRestarts accountId => some (s.setPod accountId {})
  | .sweepBegins now accounts => some { s with sweeps := s.sweeps ++ [⟨now, accounts, []⟩] }
  | .sweepLists w | .sweepReaps w | .sweepMisses w =>
    match s.sweeps[w]? with
    | some sweep => stepSweep settings s w sweep e
    | none => none

section Sections

variable {settings : SchedulerSettings} {s s' : SchedulerSystem}

variable {fire : Fire} {f : Nat}

theorem mem_setFire {g : Fire} (h : g ∈ (s.setFire f fire).fires) :
    g ∈ s.fires ∨ g = fire := List.mem_or_eq_of_mem_set h

theorem getElem?_setFire {g : Nat} {fire' other : Fire} (hg : (s.setFire f fire').fires[g]? = some other) :
    g ≠ f ∧ s.fires[g]? = some other ∨ g = f ∧ other = fire' := by
  simp only [SchedulerSystem.setFire] at hg
  rw [List.getElem?_set] at hg
  split at hg
  · rename_i hgf
    split at hg <;> cases hg
    exact .inr ⟨hgf.symm, rfl⟩
  · rename_i hgf
    exact .inl ⟨fun he => hgf he.symm, hg⟩

theorem getElem?_append_fire {g : Nat} {other : Fire} (hg : (s.fires ++ [fire])[g]? = some other) :
    s.fires[g]? = some other ∨ g = s.fires.length ∧ other = fire := by
  rw [List.getElem?_append] at hg
  split at hg
  · exact .inl hg
  · rename_i hlen
    obtain ⟨hidx, heq⟩ := List.getElem?_eq_some_iff.mp hg
    rw [List.length_singleton] at hidx
    exact .inr ⟨by omega, by simpa using heq.symm⟩

/-- What a section that writes no record makes of its fire. -/
structure Moved (s : SchedulerSystem) (fire fire' : Fire) : Prop where
  accountId : fire'.accountId = fire.accountId
  jobId : fire'.jobId = fire.jobId
  live : fire.phase ≠ .ended
  runId : ∀ runId ∈ fire'.runId?, fire.runId? = some runId
  starting : fire'.phase = .starting → ∃ dispatchable, s.checkLatest fire dispatchable = .starting
  closing : ∀ status ∈ fire'.phase.closing?, status ≠ .running

theorem Moved.to {phase : FirePhase} (sent : Nat) (hopen : fire.phase ≠ .ended)
    (hrun : (fire.moveTo phase).runId? = none ∨ (fire.moveTo phase).runId? = fire.runId?)
    (hstarting : phase ≠ .starting) (hclosing : phase.closing? ≠ some .running) :
    Moved s fire { fire with phase := phase, sent := sent } := by
  refine ⟨rfl, rfl, hopen, ?_, fun h => absurd h hstarting, ?_⟩
  · intro runId hid
    rcases hrun with hrun | hrun
    · exact absurd (hrun.symm.trans hid) (by simp)
    · exact hrun.symm.trans hid
  · rintro status hstatus rfl
    exact hclosing hstatus

theorem runId?_retry (fire : Fire) (runId : String) (attempt : Nat) :
    (fire.moveTo (retry settings runId attempt)).runId? = some runId := by
  unfold retry
  split <;> rfl

theorem closing?_retry (runId : String) (attempt : Nat) :
    (retry settings runId attempt).closing? ≠ some .running := by
  unfold retry
  split <;> simp [FirePhase.closing?]

theorem retry_ne_starting (runId : String) (attempt : Nat) : retry settings runId attempt ≠ .starting := by
  unfold retry
  split <;> simp

theorem Moved.check (hchecking : fire.phase = .checking) (dispatchable : Bool) :
    Moved s fire (fire.moveTo (s.checkLatest fire dispatchable)) := by
  refine ⟨rfl, rfl, by simp [hchecking], ?_, fun h => ⟨dispatchable, h⟩, ?_⟩
  · intro runId hid
    unfold checkLatest at hid
    split at hid
    · cases hid
    · split at hid <;> cases hid
  · intro status hstatus
    simp only [Fire.moveTo] at hstatus
    unfold checkLatest at hstatus
    split at hstatus
    · cases hstatus
      decide
    · split at hstatus <;> cases hstatus
      decide

variable {e : SchedulerEvent}

theorem stepFire_cases
    (hs : stepFire settings s f fire e = some s') :
    (∃ fire', Moved s fire fire' ∧ s'.fires = s.fires.set f fire' ∧ s'.ledger = s.ledger ∧
      s'.pods = s.pods ∧ s'.admitted = s.admitted ∧ ∀ post ∈ s'.posts, post ∈ s.posts ∨
        post.accountId = fire.accountId ∧ fire.runId? = some post.runId) ∨
    (∃ g runId now status reason, e = .skipRecorded g runId now ∧
      fire.phase = .skipping status reason ∧ s.Unused runId ∧
      s' = { s.setFire f (fire.moveTo .ended) with
        ledger := s.ledger.recordRun fire.accountId (closedRecord fire runId now status reason) }) ∨
    (∃ g runId now ledger, e = .runStarted g runId now ∧ fire.phase = .starting ∧ s.Unused runId ∧
      s.ledger.startRun fire.accountId (runningRecord fire runId now) = some ledger ∧
      s' = { s.setFire f (fire.moveTo (retry settings runId 0)) with ledger := ledger }) ∨
    (∃ g runId now status reason, e = .finishWritten g now ∧ fire.phase = .finishing runId status reason ∧
      s' = { s.setFire f (fire.moveTo .ended) with
        ledger := s.ledger.finishRun (closedRecord fire runId now status reason) }) := by
  cases e with
  | accountRead g status =>
    simp only [stepFire] at hs
    split at hs
    case h_4 => cases hs
    all_goals
      rename_i hp
      cases hs
      exact .inl ⟨_, Moved.to fire.sent (by simp [hp]) (.inl rfl) (by simp)
        (by simp [FirePhase.closing?]), rfl, rfl, rfl, rfl, fun _ h => .inl h⟩
  | latestRead g dispatchable =>
    simp only [stepFire] at hs
    split at hs <;> cases hs
    rename_i hp
    exact .inl ⟨_, Moved.check hp dispatchable, rfl, rfl, rfl, rfl, fun _ h => .inl h⟩
  | skipRecorded g runId now =>
    simp only [stepFire] at hs
    split at hs
    · rename_i status reason hp
      split at hs <;> cases hs
      rename_i hunused
      exact .inr (.inl ⟨g, runId, now, status, reason, rfl, hp, hunused, rfl⟩)
    · cases hs
  | runStarted g runId now =>
    simp only [stepFire] at hs
    split at hs
    · rename_i hp
      split at hs
      · rename_i hunused
        obtain ⟨ledger, hledger, rfl⟩ := Option.map_eq_some_iff.mp hs
        exact .inr (.inr (.inl ⟨g, runId, now, ledger, rfl, hp, hunused, hledger, rfl⟩))
      · cases hs
    · cases hs
  | skipLost g | startLost g | finishLost g =>
    simp only [stepFire] at hs
    split at hs <;> cases hs
    rename_i hp
    exact .inl ⟨_, Moved.to fire.sent (by simp [hp]) (.inl rfl) (by simp)
      (by simp [FirePhase.closing?]), rfl, rfl, rfl, rfl, fun _ h => .inl h⟩
  | attemptFailed g =>
    simp only [stepFire] at hs
    split at hs
    case h_3 => cases hs
    all_goals
      rename_i runId attempt hp
      cases hs
      exact .inl ⟨_, Moved.to fire.sent (by simp [hp])
        (.inr (by rw [runId?_retry]; simp [Fire.runId?, hp])) (retry_ne_starting runId attempt)
        (closing?_retry runId attempt), rfl, rfl, rfl, rfl, fun _ h => .inl h⟩
  | posted g =>
    simp only [stepFire] at hs
    split at hs
    case h_3 => cases hs
    all_goals
      rename_i runId attempt hp
      cases hs
      refine .inl ⟨_, Moved.to (fire.sent + 1) (by simp [hp])
        (.inr (by simp [Fire.runId?, Fire.moveTo, hp])) (by simp) (by simp [FirePhase.closing?]),
        rfl, rfl, rfl, rfl, fun post hpost => ?_⟩
      rcases List.mem_cons.mp hpost with rfl | hpost
      · exact .inr ⟨rfl, by simp [Fire.runId?, hp]⟩
      · exact .inl hpost
  | replied g reply =>
    simp only [stepFire] at hs
    split at hs
    · rename_i runId attempt hp
      split at hs <;> cases hs
      refine .inl ⟨fire.moveTo (answer runId attempt reply), Moved.to fire.sent (by simp [hp]) ?_ ?_ ?_,
        rfl, rfl, rfl, rfl, fun _ h => .inl h⟩
      · cases reply with
        | accepted => exact .inl rfl
        | jobOverlap | concurrencyCap => exact .inr (by simp [Fire.runId?, Fire.moveTo, answer, hp])
      · cases reply <;> simp [answer]
      · cases reply <;> simp [answer, FirePhase.closing?]
    · cases hs
  | windowClosed g =>
    simp only [stepFire] at hs
    split at hs <;> cases hs
    rename_i runId attempt hp
    exact .inl ⟨_, Moved.to fire.sent (by simp [hp])
      (.inr (by simp [Fire.runId?, Fire.moveTo, hp])) (by simp) (by simp [FirePhase.closing?]),
      rfl, rfl, rfl, rfl, fun _ h => .inl h⟩
  | finishWritten g now =>
    simp only [stepFire] at hs
    split at hs <;> cases hs
    rename_i runId status reason hp
    exact .inr (.inr (.inr ⟨g, runId, now, status, reason, rfl, hp, rfl⟩))
  | fireClaimed _ _ _ | podHandles _ _ | podEnds _ _ | podWrites _ _ | podCloses _ _
  | podForgets _ _ | podRestarts _ | sweepBegins _ _ | sweepLists _ | sweepReaps _
  | sweepMisses _ => cases hs

theorem stepPod_cases {accountId runId : String} {podRun : PodRun}
    (hs : stepPod s accountId runId podRun e = some s') :
    (∃ pod : Pod, s' = s.setPod accountId pod ∧
      ∀ id, (pod.accepted.lookup id = (s.pods accountId).accepted.lookup id) ∨
        (id = runId ∧ ∀ run ∈ pod.accepted.lookup id, run.phase ≠ .executing ∧
          ∀ rec, run.phase = .writing rec → podRun.phase = .executing ∧ rec.status ≠ .running ∧
            ∃ a, e = .podEnds a rec)) ∨
    (∃ rec, podRun.phase = .writing rec ∧ s' = { s with ledger := s.ledger.finishRun rec }) := by
  -- the other runs of the pod stay as they are
  have hinsert : ∀ (run : PodRun) (id : String), id ≠ runId →
      ((s.pods accountId).setRun runId run).accepted.lookup id =
        (s.pods accountId).accepted.lookup id := fun _ _ hid => AList.lookup_insert_ne hid
  have hself : ∀ run : PodRun,
      ((s.pods accountId).setRun runId run).accepted.lookup runId = some run := fun _ =>
    AList.lookup_insert _
  cases e with
  | podEnds a rec =>
    simp only [stepPod] at hs
    split at hs <;> cases hs
    rename_i hexec
    refine .inl ⟨_, rfl, fun id => ?_⟩
    by_cases hid : id = runId
    · refine .inr ⟨hid, fun run hrun => ?_⟩
      rw [hid, hself] at hrun
      cases hrun
      refine ⟨by simp, fun rec' hrec => ?_⟩
      cases hrec
      exact ⟨hexec.1, hexec.2, a, rfl⟩
    · exact .inl (hinsert _ id hid)
  | podWrites a id =>
    simp only [stepPod] at hs
    split at hs <;> cases hs
    rename_i rec hp
    exact .inr ⟨rec, hp, rfl⟩
  | podCloses a id =>
    simp only [stepPod] at hs
    split at hs <;> cases hs
    refine .inl ⟨_, rfl, fun id => ?_⟩
    by_cases hid : id = runId
    · refine .inr ⟨hid, fun run hrun => ?_⟩
      rw [hid, hself] at hrun
      cases hrun
      exact ⟨by simp, fun rec' hrec => by cases hrec⟩
    · exact .inl (hinsert _ id hid)
  | podForgets a id =>
    simp only [stepPod] at hs
    split at hs <;> cases hs
    refine .inl ⟨_, rfl, fun id => ?_⟩
    by_cases hid : id = runId
    · refine .inr ⟨hid, fun run hrun => ?_⟩
      rw [hid, AList.lookup_erase] at hrun
      cases hrun
    · exact .inl (AList.lookup_erase_ne hid)
  | fireClaimed _ _ _ | accountRead _ _ | latestRead _ _ | skipRecorded _ _ _ | skipLost _
  | runStarted _ _ _ | startLost _ | attemptFailed _ | posted _ | replied _ _ | windowClosed _
  | finishWritten _ _ | finishLost _ | podHandles _ _ | podRestarts _ | sweepBegins _ _
  | sweepLists _ | sweepReaps _ | sweepMisses _ => cases hs

theorem stepSweep_cases {w : Nat} {sweep : Sweep}
    (hs : stepSweep settings s w sweep e = some s') :
    (∃ sweep', s' = s.setSweep w sweep') ∨
    (∃ v run runs, e = .sweepReaps v ∧ sweep.runs = run :: runs ∧
      s' = { s.setSweep w ⟨sweep.now, sweep.accounts, runs⟩ with
        ledger := s.ledger.finishRun (reapRecord sweep run) }) := by
  cases e with
  | sweepLists v =>
    simp only [stepSweep] at hs
    split at hs <;> cases hs
    exact .inl ⟨_, rfl⟩
  | sweepReaps v =>
    simp only [stepSweep] at hs
    split at hs <;> cases hs
    rename_i run runs hr
    exact .inr ⟨v, run, runs, rfl, hr, rfl⟩
  | sweepMisses v =>
    simp only [stepSweep] at hs
    split at hs <;> cases hs
    exact .inl ⟨_, rfl⟩
  | fireClaimed _ _ _ | accountRead _ _ | latestRead _ _ | skipRecorded _ _ _ | skipLost _
  | runStarted _ _ _ | startLost _ | attemptFailed _ | posted _ | replied _ _ | windowClosed _
  | finishWritten _ _ | finishLost _ | podHandles _ _ | podEnds _ _ | podWrites _ _
  | podCloses _ _ | podForgets _ _ | podRestarts _ | sweepBegins _ _ => cases hs

theorem lookup_scheduledRun (pod : Pod) (runId jobId : String) (capReached : Bool) (id : String) :
    (pod.scheduledRun runId jobId capReached).2.accepted.lookup id = pod.accepted.lookup id ∨
      (id = runId ∧ pod.accepted.lookup runId = none ∧ (pod.scheduledRun runId jobId capReached).1 = .accepted ∧
        (pod.scheduledRun runId jobId capReached).2.accepted.lookup id = some ⟨jobId, .executing⟩) := by
  unfold Pod.scheduledRun
  split
  · exact .inl rfl
  · rename_i hnew
    split
    · exact .inl rfl
    · split
      · exact .inl rfl
      · by_cases hid : id = runId
        · refine .inr ⟨hid, by simpa using hnew, rfl, ?_⟩
          rw [hid]
          exact AList.lookup_insert _
        · exact .inl (AList.lookup_insert_ne hid)

theorem step_cases (hs : s.step settings e = some s') :
    (∃ accountId jobId jobName, e = .fireClaimed accountId jobId jobName ∧
      s' = { s with fires := s.fires ++ [⟨accountId, jobId, jobName, .claimed, 0⟩] }) ∨
    (∃ f fire, e.fire? = some f ∧ s.fires[f]? = some fire ∧ stepFire settings s f fire e = some s') ∨
    (∃ post capReached, e = .podHandles post capReached ∧ post ∈ s.posts ∧
      s'.ledger = s.ledger ∧ s'.fires = s.fires ∧ (∀ p ∈ s'.posts, p ∈ s.posts) ∧
      s'.pods = Function.update s.pods post.accountId
        ((s.pods post.accountId).scheduledRun post.runId post.jobId capReached).2 ∧
      s'.admitted = if ((s.pods post.accountId).scheduledRun post.runId post.jobId capReached).1 =
          .accepted ∧ (s.pods post.accountId).accepted.lookup post.runId = none
        then post.runId :: s.admitted else s.admitted) ∨
    (∃ accountId runId podRun, (s.pods accountId).accepted.lookup runId = some podRun ∧
      stepPod s accountId runId podRun e = some s' ∧
      ∀ a rec, e = .podEnds a rec → runId = rec.runId) ∨
    (∃ accountId, e = .podRestarts accountId ∧ s' = s.setPod accountId {}) ∨
    (∃ now accounts, e = .sweepBegins now accounts ∧
      s' = { s with sweeps := s.sweeps ++ [⟨now, accounts, []⟩] }) ∨
    (∃ w sweep, s.sweeps[w]? = some sweep ∧ stepSweep settings s w sweep e = some s' ∧
      ∀ v, e = .sweepReaps v → v = w) := by
  cases e with
  | fireClaimed accountId jobId jobName =>
    cases hs
    exact .inl ⟨_, _, _, rfl, rfl⟩
  | accountRead f _ | latestRead f _ | skipRecorded f _ _ | skipLost f | runStarted f _ _
  | startLost f | attemptFailed f | posted f | replied f _ | windowClosed f | finishWritten f _
  | finishLost f =>
    simp only [step] at hs
    split at hs
    · rename_i fire hf
      exact .inr (.inl ⟨f, fire, rfl, hf, hs⟩)
    · cases hs
  | podHandles post capReached =>
    simp only [step] at hs
    split at hs <;> cases hs
    rename_i hpost
    exact .inr (.inr (.inl ⟨post, capReached, rfl, hpost, rfl, rfl,
      fun _ h => List.mem_of_mem_erase h, rfl, rfl⟩))
  | podEnds accountId rec =>
    simp only [step] at hs
    split at hs
    · rename_i run hrun
      exact .inr (.inr (.inr (.inl ⟨accountId, rec.runId, run, hrun, hs, fun _ _ h => by cases h; rfl⟩)))
    · cases hs
  | podWrites accountId runId | podCloses accountId runId | podForgets accountId runId =>
    simp only [step] at hs
    split at hs
    · rename_i run hrun
      exact .inr (.inr (.inr (.inl ⟨accountId, runId, run, hrun, hs, fun _ _ h => by cases h⟩)))
    · cases hs
  | podRestarts accountId =>
    cases hs
    exact .inr (.inr (.inr (.inr (.inl ⟨accountId, rfl, rfl⟩))))
  | sweepBegins now accounts =>
    cases hs
    exact .inr (.inr (.inr (.inr (.inr (.inl ⟨now, accounts, rfl, rfl⟩)))))
  | sweepLists w | sweepReaps w | sweepMisses w =>
    simp only [step] at hs
    split at hs
    · rename_i sweep hw
      exact .inr (.inr (.inr (.inr (.inr (.inr ⟨w, sweep, hw, hs, fun _ h => by cases h <;> rfl⟩)))))
    · cases hs

end Sections

/-- Nothing is in flight yet; the ledger holds the given jobs and no run. -/
def init (jobs : List String) : SchedulerSystem := { ledger := { jobs := jobs } }

/-- A fire that reads an active account and then the newest record of its job. -/
def fireChecks (f : Nat) : List SchedulerEvent :=
  [.fireClaimed "account" "job" "report", .accountRead f (some true), .latestRead f true]

/-- The pod of the account admits the run of a fire and the scheduler hears of it. -/
def fireAdmitted (f : Nat) (runId : String) : List SchedulerEvent :=
  [.posted f, .podHandles ⟨f, 1, "account", "job", runId⟩ false, .replied f .accepted]

end SchedulerSystem

end PrivaCloud.Scheduler
