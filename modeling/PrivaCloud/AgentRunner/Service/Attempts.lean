import PrivaCloud.Framework.Dict

/-!
# The attempt loops

`service.agent_run` and `service.agent_run_events`: up to `MAX_ATTEMPTS` attempts of one turn. Their
outcomes are inputs; the model computes with which options each starts, in which session the prompt is
submitted, and when the lazy resume guard replaces the session. A query that raises submits nothing.
-/

namespace PrivaCloud.AgentRunner

open Framework

/-- `retry.MAX_ATTEMPTS` -/
def maxAttempts : Nat := 10

structure SessionOptions where
  resume : Option String := none
  sessionId : Option String := none
  forkSession : Bool := false

def SessionOptions.transcript (o : SessionOptions) : Option String :=
  match o.sessionId with
  | some id => some id
  | none => o.resume

/-- The exceptions that `should_retry_exception` tells apart. -/
inductive RunException
  | queueByteLimit
  | runtimeFrameLimit
  | runtimePoolCapacity
  | runtimePoolShuttingDown
  | runtimeSessionCollision
  | runtimeWriteScopeBusy
  | sessionRuntimeBusy
  | other (name : String)
  deriving DecidableEq

def shouldRetryException : RunException → Bool
  | .other _ => true
  | _ => false

/-- A failure is an exception, or a cancellation that no handler catches. -/
inductive Failure
  | exception (e : RunException)
  | cancelled
  deriving DecidableEq

inductive AttemptEnd
  /-- entering the runtime context raises -/
  | connect (failure : Failure)
  | query (failure : Failure)
  /-- a synthetic assistant error worth retrying -/
  | synthetic
  /-- reading the stream raises -/
  | receive (e : RunException)
  /-- anything else in the attempt raises -/
  | body (failure : Failure)
  | completed

/-- The outcome of one attempt. -/
structure AttemptOutcome where
  ending : AttemptEnd
  /-- The options of the warm runtime, if the acquire reused one. -/
  reused : Option SessionOptions := none
  /-- `get_session_info(options.resume) is None`, if the guard asks. -/
  targetMissing : Bool := false

/-- Both entry points; the second has the lazy resume guard and reads the stream in a pump task. -/
inductive EntryPoint
  | agentRun
  | agentRunEvents
  deriving DecidableEq

/-- What leaves `_run_one_attempt`. -/
inductive Raised
  | retryableSynthetic
  | resumeTargetLost
  | failure (failure : Failure)

/-- The variables that the loop carries from one attempt to the next. -/
structure AttemptState where
  options : SessionOptions
  currentResumeId : String
  resumeInPlace : Bool := false
  attemptResumable : Bool := false
  resumeFallbackUsed : Bool := false
  /-- The number of ids drawn from `uuid4`. -/
  drawn : Nat := 0

/-- One attempt as seen from outside: the options it starts with, the session its prompt is
submitted to, and the fresh id if the lazy guard resets the session after it. -/
structure Attempt where
  start : SessionOptions
  submitted : Option String
  reset : Option String

structure RunCall where
  sessionId : Option String := none
  forkSession : Bool := false
  newSessionId : Option String := none

namespace AttemptEnd

def queried : AttemptEnd → Bool
  | .connect _ | .query _ => false
  | _ => true

def entered : AttemptEnd → Bool
  | .connect _ => false
  | _ => true

end AttemptEnd

namespace AttemptState

def rotate (st : AttemptState) : AttemptState :=
  match truthy (some st.currentResumeId) with
  | some id => { st with options := { resume := some id } }
  | none => st

/-- The assignments of `_run_one_attempt`. -/
def assign (st : AttemptState) (o : AttemptOutcome) : AttemptState :=
  { st with
    options := if o.ending.entered then o.reused.getD st.options else st.options
    attemptResumable := st.resumeInPlace || o.ending.queried }

/-- What `_run_one_attempt` raises. -/
def runOneAttempt (entry : EntryPoint) (st : AttemptState) (o : AttemptOutcome) : Option Raised :=
  match o.ending with
  | .connect failure | .query failure | .body failure => some (.failure failure)
  | .synthetic => some .retryableSynthetic
  | .completed => none
  | .receive e =>
    match entry with
    | .agentRun => some (.failure (.exception e))
    | .agentRunEvents =>
      if shouldRetryException e then some .retryableSynthetic
      else if (truthy (st.assign o).options.resume).isSome && o.targetMissing then
        some .resumeTargetLost
      else none

def resetToFreshSession (uuid4 : Nat → String) (st : AttemptState) : AttemptState :=
  { st with
    resumeFallbackUsed := true
    options := { sessionId := some (uuid4 st.drawn) }
    currentResumeId := uuid4 st.drawn
    drawn := st.drawn + 1
    resumeInPlace := false }

/-- The next attempt continues the pending turn if the prompt is already in the transcript. -/
def retry (st : AttemptState) : AttemptState :=
  { st with resumeInPlace := (truthy (some st.currentResumeId)).isSome && st.attemptResumable }

/-- The handlers of the attempt loop: the state for the next attempt and the fresh id of a reset,
or nothing if the loop is left. -/
def handle (entry : EntryPoint) (uuid4 : Nat → String) (st : AttemptState) (targetMissing : Bool) :
    Raised → Option (AttemptState × Option String)
  | .retryableSynthetic => some (st.retry, none)
  | .resumeTargetLost =>
    if st.resumeFallbackUsed then none
    else some (st.resetToFreshSession uuid4, some (uuid4 st.drawn))
  | .failure .cancelled => none
  | .failure (.exception e) =>
    if entry = .agentRunEvents ∧ !st.resumeFallbackUsed ∧ (truthy st.options.resume).isSome ∧ targetMissing then
      some (st.resetToFreshSession uuid4, some (uuid4 st.drawn))
    else if shouldRetryException e then some (st.retry, none)
    else none

/-- What happens before `_run_one_attempt`. -/
def beginAttempt (attempt : Nat) (st : AttemptState) : AttemptState :=
  if 1 < attempt then st.rotate else st

def submits (st : AttemptState) (o : AttemptOutcome) : Option String :=
  if o.ending.queried && !st.resumeInPlace then st.options.transcript else none

/-- One attempt with the handler of what it raises. -/
def next (entry : EntryPoint) (uuid4 : Nat → String) (st : AttemptState) (o : AttemptOutcome) :
    Option (AttemptState × Option String) :=
  (st.runOneAttempt entry o).bind ((st.assign o).handle entry uuid4 o.targetMissing)

/-- The attempts from number `attempt` on, one for each outcome. -/
def attempts (entry : EntryPoint) (uuid4 : Nat → String) :
    Nat → AttemptState → List AttemptOutcome → List Attempt
  | _, _, [] => []
  | attempt, st, o :: os =>
    if maxAttempts < attempt then []
    else
      let st := st.beginAttempt attempt
      match st.next entry uuid4 o with
      | none => [⟨st.options, st.submits o, none⟩]
      | some (st', reset) =>
        ⟨st.options, st.submits o, reset⟩ :: attempts entry uuid4 (attempt + 1) st' os

end AttemptState

namespace RunCall

/-- The session of the turn is assigned before anything exists on disk. -/
def preassigned (call : RunCall) : Bool := call.sessionId = none || call.forkSession

def targetSessionId (uuid4 : Nat → String) (call : RunCall) : String :=
  match truthy call.newSessionId with
  | some id => id
  | none => if call.preassigned then uuid4 0 else call.sessionId.getD ""

/-- `build_agent_options`, then the preassigned session id. -/
def options (uuid4 : Nat → String) (call : RunCall) : SessionOptions where
  resume := truthy call.sessionId
  forkSession := call.forkSession && (truthy call.sessionId).isSome
  sessionId := if call.preassigned then some (call.targetSessionId uuid4) else none

def start (uuid4 : Nat → String) (call : RunCall) : AttemptState where
  options := call.options uuid4
  currentResumeId := call.targetSessionId uuid4
  drawn := 1

end RunCall

/-- `agent_run`, which takes no `new_session_id`. -/
def agentRun (uuid4 : Nat → String) (sessionId : Option String) (forkSession : Bool)
    (outcomes : List AttemptOutcome) : List Attempt :=
  let call : RunCall := { sessionId := sessionId, forkSession := forkSession }
  (call.start uuid4).attempts .agentRun uuid4 1 outcomes

def agentRunEvents (uuid4 : Nat → String) (call : RunCall) (outcomes : List AttemptOutcome) :
    Except String (List Attempt) :=
  if (truthy call.newSessionId).isSome && (truthy call.sessionId).isSome && !call.forkSession then
    .error "new_session_id is only valid for create or fork"
  else .ok ((call.start uuid4).attempts .agentRunEvents uuid4 1 outcomes)

end PrivaCloud.AgentRunner
