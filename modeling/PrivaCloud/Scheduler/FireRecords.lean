import PrivaCloud.AgentRunner.ScheduledRuns.JobEdits

/-!
# The record of a fire

`SchedulerEngine.fire` with `WakeDialDispatcher.dispatch` and `wake_and_wait`, as functions of what
Kubernetes, the clock and the HTTP client answer. The answers of a fire are a list that it reads to its
end. The calls into the data plane succeed.
-/

namespace PrivaCloud.Scheduler.FireRecords

open DataPlane
open DataSpine (RunLedger RunStatus)
open AgentRunner.Jobs (RunFrame buildFrame)

structure FireSettings where
  wakeTimeoutSeconds : ℚ := 60
  wakeRetryAttempts : Nat := 5
  admissionRetryWindowSeconds : ℚ := 120
  jitterWindowSeconds : ℚ := 5

/-- What a call of the waker or of the HTTP client returns or raises, and what a clock shows. An error is
other when it is neither an `ApiException` of Kubernetes nor a transport error of `httpx`. -/
inductive Answer
  | clock (now : ℚ)
  | status (phase podIP : String)
  | patched
  | apiException (status : Nat)
  | opened
  | response (statusCode : Nat)
  | closed
  | transportError
  | otherError
  deriving DecidableEq

/-- A call that returns, raises an `ApiException` or raises something else. -/
inductive KubeReply (α : Type)
  | returned (a : α)
  | apiException
  | otherError

/-- `_status` -/
def tenantStatus : Answer → Option (KubeReply (String × String))
  | .status phase podIP => some (.returned (phase, podIP))
  | .apiException 404 => some (.returned ("", ""))
  | .apiException _ => some .apiException
  | .otherError => some .otherError
  | _ => none

def patchWake : Answer → Option (KubeReply Unit)
  | .patched => some (.returned ())
  | .apiException _ => some .apiException
  | .otherError => some .otherError
  | _ => none

def running (status : String × String) : Bool := status.1 = "Running" && status.2 ≠ ""

inductive WakeEnd
  | ready
  | notReady
  | raised

/-- The poll loop of `wake_and_wait`. -/
def poll (deadline : ℚ) : List Answer → Option (WakeEnd × List Answer)
  | .clock now :: rest =>
    if now < deadline then
      match rest with
      | a :: rest =>
        match tenantStatus a with
        | some (.returned status) => if running status then some (.ready, rest) else poll deadline rest
        | some .apiException => some (.notReady, rest)
        | some .otherError => some (.raised, rest)
        | none => none
      | [] => none
    else some (.notReady, rest)
  | _ => none

def wakeAndWait (settings : FireSettings) : List Answer → Option (WakeEnd × List Answer)
  | a :: rest =>
    match tenantStatus a with
    | some (.returned status) =>
      if running status then some (.ready, rest)
      else
        match rest with
        | b :: rest =>
          match patchWake b, rest with
          | some (.returned _), .clock now :: rest => poll (now + settings.wakeTimeoutSeconds) rest
          | some .apiException, rest => some (.notReady, rest)
          | some .otherError, rest => some (.raised, rest)
          | _, _ => none
        | [] => none
    | some .apiException => some (.notReady, rest)
    | some .otherError => some (.raised, rest)
    | none => none
  | [] => none

inductive Verdict
  | accepted
  | jobOverlap
  | concurrencyCap
  deriving DecidableEq

inductive PostReply
  | response (statusCode : Nat)
  | transportError
  | otherError

def post : Answer → Option PostReply
  | .response statusCode => some (.response statusCode)
  | .transportError => some .transportError
  | .otherError => some .otherError
  | _ => none

/-- `_ADMISSION_RETRY_DELAYS + (30.0,) * 16` -/
def admissionRetryDelays : List ℚ := [5, 10, 20, 30] ++ List.replicate 16 30

/-- A verdict, `None` or an exception. -/
inductive HandleEnd
  | verdict (verdict : Verdict)
  | retry
  | raised

/-- The loop of `_handle_response` over the delays. -/
def readmit (deadline : ℚ) : List ℚ → List Answer → Option (HandleEnd × List Answer)
  | [], rest => some (.verdict .concurrencyCap, rest)
  | delay :: delays, .clock now :: rest =>
    if deadline < now + delay then some (.verdict .concurrencyCap, rest)
    else
      match rest with
      | a :: rest =>
        match post a with
        | some (.response 202) => some (.verdict .accepted, rest)
        | some (.response 409) => some (.verdict .jobOverlap, rest)
        | some (.response 429) => readmit deadline delays rest
        | some (.response _) | some .transportError => some (.retry, rest)
        | some .otherError => some (.raised, rest)
        | none => none
      | [] => none
  | _ :: _, _ => none

def handleResponse (settings : FireSettings) (statusCode : Nat) (rest : List Answer) :
    Option (HandleEnd × List Answer) :=
  match statusCode, rest with
  | 202, rest => some (.verdict .accepted, rest)
  | 409, rest => some (.verdict .jobOverlap, rest)
  | 429, .clock now :: rest => readmit (now + settings.admissionRetryWindowSeconds) admissionRetryDelays rest
  | 429, _ => none
  | _, rest => some (.retry, rest)

inductive DispatchEnd
  | verdict (verdict : Verdict)
  | dispatchError (reason : String)
  | raised
  deriving DecidableEq

/-- The loop of `dispatch` over the attempts that are left. -/
def attempts (settings : FireSettings) : Nat → List Answer → Option (DispatchEnd × List Answer)
  | 0, rest => some (.dispatchError "wake_failed", rest)
  | n + 1, rest =>
    match wakeAndWait settings rest with
    | some (.notReady, rest) => attempts settings n rest
    | some (.raised, rest) => some (.raised, rest)
    | some (.ready, a :: rest) =>
      match post a with
      | some (.response statusCode) =>
        match handleResponse settings statusCode rest with
        | some (.verdict verdict, rest) => some (.verdict verdict, rest)
        | some (.retry, rest) => attempts settings n rest
        | some (.raised, rest) => some (.raised, rest)
        | none => none
      | some .transportError => attempts settings n rest
      | some .otherError => some (.raised, rest)
      | none => none
    | some (.ready, []) | none => none

/-- `dispatch`, inside the client that it opens and closes. An exception leaves it as one whatever the
closing does. -/
def dispatch (settings : FireSettings) : List Answer → Option DispatchEnd
  | .otherError :: [] => some .raised
  | .opened :: rest =>
    match attempts settings settings.wakeRetryAttempts rest with
    | some (.raised, rest) => if rest = [] then some .raised else none
    | some (reached, [.closed]) => some reached
    | some (_, [.otherError]) => some .raised
    | _ => none
  | _ => none

def usesFeishuCallback : JobConfig → Bool
  | .agentRun config => config.callback
  | .httpCall config => config.callback
  | .userScript config => config.callback
  | .toolRetry _ => false

def timeoutSeconds : JobConfig → Int
  | .agentRun config => config.timeoutSeconds
  | .httpCall config => config.timeoutSeconds
  | .userScript config => config.timeoutSeconds
  | .toolRetry _ => 0

def callbackTokenTtl (config : JobConfig) : Int :=
  if 0 < timeoutSeconds config then max 3600 (timeoutSeconds config + 900) else 24 * 3600

/-- `_job_jitter_seconds`; the division by zero raises. -/
def jobJitterSeconds (hash : Int) (window : ℚ) : Option ℚ :=
  if window ≤ 0 then some 0
  else if ⌊window * 10⌋ = 0 then none
  else some ((hash % ⌊window * 10⌋ : Int) / 10)

/-- What a fire starts from: what its reads and its claim return, the id of its run, the time, the hash
of the id of the job and the signing of tokens, which may raise. -/
structure FireInput where
  accountId : String
  jobId : String
  manual : Bool := false
  job : Option DataPlane.ScheduledJobDefinition
  claimed : Bool := true
  account : Option AccountRow
  runId : String
  now : Nat
  hash : Int
  mint : (accountId runId jobId : String) → (ttlSeconds : Int) → Option String

inductive FireEnd
  | returned (outcome : String)
  | raised
  deriving DecidableEq

/-- The record of `_record_skip` and of `_finish`. -/
def closedRecord (input : FireInput) (job : DataPlane.ScheduledJobDefinition) (status : RunStatus) (reason : String) :
    DataSpine.JobRunRecord where
  runId := input.runId
  jobId := job.id
  jobName := job.name
  startedAt := input.now
  finishedAt := some input.now
  status := status
  isError := status = .error
  errorMessage := some reason

def runningRecord (input : FireInput) (job : DataPlane.ScheduledJobDefinition) : DataSpine.JobRunRecord where
  runId := input.runId
  jobId := input.jobId
  jobName := job.name
  startedAt := input.now

/-- `fire` from the call of the dispatcher on. -/
def settle (settings : FireSettings) (input : FireInput) (job : DataPlane.ScheduledJobDefinition) (ledger : RunLedger)
    (answers : List Answer) : Option (FireEnd × RunLedger) :=
  (dispatch settings answers).map fun
    | .verdict .accepted => (.returned "dispatched", ledger)
    | .verdict .jobOverlap =>
      (.returned "skipped_busy", ledger.finishRun (closedRecord input job .skipped "already_running"))
    | .verdict .concurrencyCap =>
      (.returned "skipped_cap", ledger.finishRun (closedRecord input job .skipped "concurrency_cap"))
    | .dispatchError reason => (.returned "error", ledger.finishRun (closedRecord input job .error reason))
    | .raised => (.raised, ledger)

/-- `fire` from the frame on. -/
def launch (settings : FireSettings) (input : FireInput) (job : DataPlane.ScheduledJobDefinition) (frame : RunFrame)
    (ledger : RunLedger) (answers : List Answer) : Option (FireEnd × RunLedger) :=
  if usesFeishuCallback frame.jobConfig ∧
      (input.mint input.accountId input.runId job.id (callbackTokenTtl frame.jobConfig)).isNone then
    if answers = [] then some (.raised, ledger) else none
  else
    (ledger.startRun input.accountId (runningRecord input job)).bind fun ledger =>
      if ¬ input.manual ∧ (jobJitterSeconds input.hash settings.jitterWindowSeconds).isNone then
        if answers = [] then some (.raised, ledger) else none
      else settle settings input job ledger answers

/-- How the fire ends and the ledger that it leaves, when these are all the answers that it gets. -/
def fire (settings : FireSettings) (input : FireInput) (ledger : RunLedger) (answers : List Answer) :
    Option (FireEnd × RunLedger) :=
  let skip job status reason := ledger.recordRun input.accountId (closedRecord input job status reason)
  let done outcome ledger := if answers = [] then some (.returned outcome, ledger) else none
  match input.job with
  | none => done "gone" ledger
  | some job =>
    if ¬ input.manual ∧ job.status ≠ .active then done "paused" ledger
    else if ¬ input.claimed then done "claim_lost" ledger
    else
      match input.account with
      | none => done "gone" ledger
      | some account =>
        if account.status ≠ .active then done "skipped_inactive" (skip job .skipped "account_disabled")
        else if (ledger.runGetLatest input.accountId input.jobId).any (·.status = .running) then
          done "skipped_busy" (skip job .skipped "already_running")
        else
          match buildFrame job with
          | none => done "error" (skip job .error "invalid_job_config")
          | some frame => launch settings input job frame ledger answers

/-- The answers before the rest have been read, and one of them is another error just when it raised. -/
def Reads (raised : Prop) (answers rest : List Answer) : Prop :=
  ∃ read, answers = read ++ rest ∧ (raised ↔ .otherError ∈ read)

theorem Reads.nothing (rest : List Answer) : Reads False rest rest := ⟨[], rfl, by simp⟩

theorem Reads.error (rest : List Answer) : Reads True (.otherError :: rest) rest := ⟨[.otherError], rfl, by simp⟩

variable {raised : Prop} {a : Answer} {rest : List Answer} {answers : List Answer}
variable {settings : FireSettings}

theorem Reads.cons (h : Reads raised answers rest)
    (ha : a ≠ .otherError) : Reads raised (a :: answers) rest := by
  obtain ⟨read, rfl, hraised⟩ := h
  exact ⟨a :: read, rfl, by simp [hraised, Ne.symm ha]⟩

theorem Reads.trans {answers mid : List Answer} (h : Reads False answers mid)
    (h' : Reads raised mid rest) : Reads raised answers rest := by
  obtain ⟨read, rfl, hnone⟩ := h
  obtain ⟨read', rfl, hraised⟩ := h'
  refine ⟨read ++ read', (List.append_assoc _ _ _).symm, ?_⟩
  rw [List.mem_append, hraised]
  exact ⟨.inr, fun h => h.resolve_left fun hmem => hnone.mpr hmem⟩

theorem Reads.congr {raised' : Prop} (h : Reads raised answers rest)
    (hiff : raised ↔ raised') : Reads raised' answers rest := by
  rwa [← propext hiff]

theorem tenantStatus_otherError (h : tenantStatus a = some .otherError) : a = .otherError := by
  unfold tenantStatus at h
  split at h <;> first | rfl | cases h

theorem patchWake_otherError (h : patchWake a = some .otherError) : a = .otherError := by
  unfold patchWake at h
  split at h <;> first | rfl | cases h

theorem post_otherError (h : post a = some .otherError) : a = .otherError := by
  unfold post at h
  split at h <;> first | rfl | cases h

theorem ne_otherError_of_tenantStatus {reply : KubeReply (String × String)}
    (h : tenantStatus a = some reply) (hreply : reply ≠ .otherError) : a ≠ .otherError := by
  rintro rfl
  cases h
  exact hreply rfl

theorem ne_otherError_of_patchWake {reply : KubeReply Unit}
    (h : patchWake a = some reply) (hreply : reply ≠ .otherError) : a ≠ .otherError := by
  rintro rfl
  cases h
  exact hreply rfl

theorem ne_otherError_of_post {reply : PostReply} (h : post a = some reply)
    (hreply : reply ≠ .otherError) : a ≠ .otherError := by
  rintro rfl
  cases h
  exact hreply rfl

theorem poll_reads {deadline : ℚ} {reached : WakeEnd}
    (h : poll deadline answers = some (reached, rest)) : Reads (reached = .raised) answers rest := by
  fun_induction poll deadline answers with
  | case1 now hlate a rest' status hstatus hrunning =>
    cases h
    refine ((Reads.nothing _).congr (by simp)).cons ?_ |>.cons (by simp)
    rintro rfl
    cases hstatus
  | case2 now hlate a rest' status hstatus hrunning ih =>
    refine ((ih h).cons ?_).cons (by simp)
    rintro rfl
    cases hstatus
  | case3 now hlate a rest' hstatus =>
    cases h
    refine ((Reads.nothing _).congr (by simp)).cons ?_ |>.cons (by simp)
    rintro rfl
    cases hstatus
  | case4 now hlate a rest' hstatus =>
    cases h
    obtain rfl := tenantStatus_otherError hstatus
    exact ((Reads.error _).congr (by simp)).cons (by simp)
  | case5 | case6 => cases h
  | case7 now hlate =>
    cases h
    exact ((Reads.nothing _).congr (by simp)).cons (by simp)
  | case8 => cases h

theorem wakeAndWait_reads {reached : WakeEnd}
    (h : wakeAndWait settings answers = some (reached, rest)) : Reads (reached = .raised) answers rest := by
  unfold wakeAndWait at h
  split at h
  · split at h
    · rename_i hstatus
      split at h
      · cases h
        exact ((Reads.nothing _).congr (by simp)).cons (ne_otherError_of_tenantStatus hstatus (by simp))
      · split at h
        · split at h
          · rename_i hpatched
            exact (((poll_reads h).cons (by simp)).cons (ne_otherError_of_patchWake hpatched (by simp))).cons (ne_otherError_of_tenantStatus hstatus (by simp))
          · rename_i hpatched
            cases h
            exact (((Reads.nothing _).congr (by simp)).cons (ne_otherError_of_patchWake hpatched (by simp))).cons
              (ne_otherError_of_tenantStatus hstatus (by simp))
          · rename_i hpatched
            cases h
            obtain rfl := patchWake_otherError hpatched
            exact ((Reads.error _).congr (by simp)).cons (ne_otherError_of_tenantStatus hstatus (by simp))
          · cases h
        · cases h
    · rename_i hstatus
      cases h
      exact ((Reads.nothing _).congr (by simp)).cons (ne_otherError_of_tenantStatus hstatus (by simp))
    · rename_i hstatus
      cases h
      obtain rfl := tenantStatus_otherError hstatus
      exact (Reads.error _).congr (by simp)
    · cases h
  · cases h

theorem readmit_reads {deadline : ℚ} {delays : List ℚ} {reached : HandleEnd}
    (h : readmit deadline delays answers = some (reached, rest)) : Reads (reached = .raised) answers rest := by
  fun_induction readmit deadline delays answers with
  | case1 rest' =>
    cases h
    exact (Reads.nothing _).congr (by simp)
  | case2 delay delays now rest' hlate =>
    cases h
    exact ((Reads.nothing _).congr (by simp)).cons (by simp)
  | case3 delay delays now hlate a rest' hpost | case4 delay delays now hlate a rest' hpost
  | case6 delay delays now hlate a rest' _ _ _ _ hpost | case7 delay delays now hlate a rest' hpost =>
    cases h
    exact (((Reads.nothing _).congr (by simp)).cons (ne_otherError_of_post hpost (by simp))).cons (by simp)
  | case5 delay delays now hlate a rest' hpost ih =>
    exact ((ih h).cons (ne_otherError_of_post hpost (by simp))).cons (by simp)
  | case8 delay delays now hlate a rest' hpost =>
    cases h
    obtain rfl := post_otherError hpost
    exact ((Reads.error _).congr (by simp)).cons (by simp)
  | case9 | case10 | case11 => cases h

theorem handleResponse_reads {statusCode : Nat}
    {reached : HandleEnd} (h : handleResponse settings statusCode answers = some (reached, rest)) :
    Reads (reached = .raised) answers rest := by
  unfold handleResponse at h
  split at h
  · cases h
    exact (Reads.nothing _).congr (by simp)
  · cases h
    exact (Reads.nothing _).congr (by simp)
  · exact (readmit_reads h).cons (by simp)
  · cases h
  · cases h
    exact (Reads.nothing _).congr (by simp)

theorem attempts_reads {n : Nat} {reached : DispatchEnd}
    (h : attempts settings n answers = some (reached, rest)) : Reads (reached = .raised) answers rest := by
  fun_induction attempts settings n answers with
  | case1 rest' =>
    cases h
    exact (Reads.nothing _).congr (by simp)
  | case2 n answers rest' hwake ih => exact ((wakeAndWait_reads hwake).congr (by simp)).trans (ih h)
  | case3 n answers rest' hwake =>
    cases h
    exact (wakeAndWait_reads hwake).congr (by simp)
  | case4 n answers a rest' hwake code hpost verdict rest'' hhandled =>
    cases h
    have hread : Reads (DispatchEnd.verdict verdict = .raised) (a :: rest') rest :=
      ((handleResponse_reads hhandled).cons (ne_otherError_of_post hpost (by simp))).congr (by simp)
    exact ((wakeAndWait_reads hwake).congr (by simp)).trans hread
  | case5 n answers a rest' hwake code hpost rest'' hhandled ih =>
    have hread : Reads False (a :: rest') rest'' :=
      ((handleResponse_reads hhandled).cons (ne_otherError_of_post hpost (by simp))).congr (by simp)
    exact ((wakeAndWait_reads hwake).congr (by simp)).trans (hread.trans (ih h))
  | case6 n answers a rest' hwake code hpost rest'' hhandled =>
    cases h
    have hread : Reads (DispatchEnd.raised = .raised) (a :: rest') rest :=
      ((handleResponse_reads hhandled).cons (ne_otherError_of_post hpost (by simp))).congr (by simp)
    exact ((wakeAndWait_reads hwake).congr (by simp)).trans hread
  | case7 => cases h
  | case8 n answers a rest' hwake hpost ih =>
    exact ((wakeAndWait_reads hwake).congr (by simp)).trans
      ((ih h).cons (ne_otherError_of_post hpost (by simp)))
  | case9 n answers a rest' hwake hpost =>
    cases h
    obtain rfl := post_otherError hpost
    exact ((wakeAndWait_reads hwake).congr (by simp)).trans ((Reads.error _).congr (by simp))
  | case10 | case11 | case12 => cases h

theorem Reads.mem (h : Reads raised answers rest) :
    .otherError ∈ answers ↔ raised ∨ .otherError ∈ rest := by
  obtain ⟨read, rfl, hraised⟩ := h
  rw [List.mem_append, hraised]

/-- The dispatcher raises anything but `DispatchError` just when one of the answers is another error. -/
theorem dispatch_raised_iff {reached : DispatchEnd}
    (h : dispatch settings answers = some reached) : reached = .raised ↔ .otherError ∈ answers := by
  unfold dispatch at h
  split at h
  · cases h
    simp
  · rw [List.mem_cons]
    split at h
    · rename_i hattempts
      split at h <;> cases h
      rename_i hrest
      rw [(attempts_reads hattempts).mem]
      simp
    · rename_i hattempts
      cases h
      rw [(attempts_reads hattempts).mem]
      simp
    · rename_i hattempts
      cases h
      rw [(attempts_reads hattempts).mem]
      simp
    · cases h
  · cases h

def FireInput.Claimed (input : FireInput) : Prop :=
  input.claimed = true ∧ ∃ job ∈ input.job, input.manual = true ∨ job.status = .active

instance (input : FireInput) : Decidable input.Claimed := inferInstanceAs (Decidable (_ ∧ ∃ job ∈ input.job, _))

/-- The fire adds one record to the ledger, which runs only if the dispatcher has returned `accepted`. -/
def Accounted (settings : FireSettings) (input : FireInput) (answers : List Answer) (ledger ledger' : RunLedger) :
    Prop :=
  ∃ row, ledger'.rows = ledger.rows ++ [row] ∧ row.runId = input.runId ∧
    (row.status = .running → dispatch settings answers = some (.verdict .accepted))

/-- Once it comes to a dispatch: a callback token can be signed if one is needed, the jitter window of a
scheduled fire is empty or at least a tenth of a second, and nothing raises another error. -/
def Fits (settings : FireSettings) (input : FireInput) (ledger : RunLedger) (answers : List Answer) : Prop :=
  ∀ job ∈ input.job, ∀ account ∈ input.account, account.status = .active →
    ¬ (ledger.runGetLatest input.accountId input.jobId).any (·.status = .running) → ∀ frame ∈ buildFrame job,
        (usesFeishuCallback frame.jobConfig →
          (input.mint input.accountId input.runId job.id (callbackTokenTtl frame.jobConfig)).isSome) ∧
        (input.manual = true ∨ settings.jitterWindowSeconds ≤ 0 ∨ 1 / 10 ≤ settings.jitterWindowSeconds) ∧
        .otherError ∉ answers

section Records

variable {settings : FireSettings} {input : FireInput} {job : DataPlane.ScheduledJobDefinition}
  {ledger ledger' : RunLedger} {answers : List Answer} {fireEnd : FireEnd}

theorem jobJitterSeconds_isNone {hash : Int} {window : ℚ} :
    (jobJitterSeconds hash window).isNone = true ↔ ¬ (window ≤ 0 ∨ 1 / 10 ≤ window) := by
  unfold jobJitterSeconds
  split
  · simp [*]
  · rename_i hpos
    have hfloor : ⌊window * 10⌋ = 0 ↔ ¬ 1 / 10 ≤ window := by
      rw [Int.floor_eq_zero_iff, Set.mem_Ico]
      constructor
      · intro h hle
        linarith [h.2]
      · intro hlt
        constructor <;> linarith
    split
    · rename_i hzero
      simpa [hpos] using hfloor.mp hzero
    · rename_i hne
      rw [hfloor, not_not] at hne
      simpa [hpos] using hne

theorem accounted_recordRun (hfresh : ∀ row ∈ ledger.rows, row.runId ≠ input.runId) {status : RunStatus}
    (hstatus : status ≠ .running) (reason : String) :
    Accounted settings input answers ledger
      (ledger.recordRun input.accountId (closedRecord input job status reason)) := by
  obtain ⟨row, hrows, hid, -, -, hrow⟩ := RunLedger.rows_recordRun input.accountId
    (closedRecord input job status reason) hfresh
  exact ⟨row, hrows, hid, fun hrunning => absurd (hrow.symm.trans hrunning) hstatus⟩

theorem accounted_finishRun (hfresh : ∀ row ∈ ledger.rows, row.runId ≠ input.runId) {row : DataSpine.RunRow}
    (hrows : ledger'.rows = ledger.rows ++ [row]) (hid : row.runId = input.runId) {status : RunStatus}
    (hstatus : status ≠ .running) (reason : String) :
    Accounted settings input answers ledger (ledger'.finishRun (closedRecord input job status reason)) := by
  obtain ⟨fields, hmap, hfields⟩ : ∃ fields : DataSpine.RunRow → DataSpine.RunRow,
      (ledger'.finishRun (closedRecord input job status reason)).rows =
        ledger'.rows.map (RunLedger.setFields input.runId fields) ∧ ∀ r, (fields r).status = status :=
    ⟨_, rfl, fun _ => rfl⟩
  have hold : ledger.rows.map (RunLedger.setFields input.runId fields) = ledger.rows := by
    conv_rhs => rw [← List.map_id ledger.rows]
    refine List.map_congr_left fun r hr => ?_
    unfold RunLedger.setFields
    rw [if_neg (hfresh r hr)]
    rfl
  refine ⟨RunLedger.setFields input.runId fields row, ?_, ?_, ?_⟩
  · rw [hmap, hrows, List.map_append, hold, List.map_singleton]
  · rw [RunLedger.setFields_runId, hid]
  · intro hrunning
    unfold RunLedger.setFields at hrunning
    rw [if_pos hid] at hrunning
    exact absurd ((hfields row).symm.trans hrunning) hstatus

theorem accounted_settle (hfresh : ∀ row ∈ ledger.rows, row.runId ≠ input.runId) {started : RunLedger}
    (hstart : ledger.startRun input.accountId (runningRecord input job) = some started)
    (h : settle settings input job started answers = some (fireEnd, ledger')) :
    Accounted settings input answers ledger ledger' ↔ .otherError ∉ answers := by
  obtain ⟨row, hrows, hid, -, -, hstatus, -⟩ := RunLedger.rows_startRun hstart
  obtain ⟨reached, hdispatch, hreached⟩ := Option.map_eq_some_iff.mp h
  rw [← dispatch_raised_iff hdispatch]
  cases reached with
  | raised =>
    cases hreached
    simp only [not_true_eq_false, iff_false]
    rintro ⟨row', hrows', -, hrunning⟩
    obtain rfl : row = row' := by
      rw [hrows] at hrows'
      exact List.singleton_injective (List.append_cancel_left hrows')
    rw [hdispatch] at hrunning
    cases hrunning hstatus
  | dispatchError reason =>
    cases hreached
    exact iff_of_true (accounted_finishRun hfresh hrows hid (by simp) reason) (by simp)
  | verdict verdict =>
    refine iff_of_true ?_ (by simp)
    cases verdict with
    | accepted =>
      cases hreached
      exact ⟨row, hrows, hid, fun _ => hdispatch⟩
    | jobOverlap | concurrencyCap =>
      cases hreached
      exact accounted_finishRun hfresh hrows hid (by simp) _

theorem accounted_launch (hfresh : ∀ row ∈ ledger.rows, row.runId ≠ input.runId) {frame : RunFrame}
    (h : launch settings input job frame ledger answers = some (fireEnd, ledger')) :
    Accounted settings input answers ledger ledger' ↔ (usesFeishuCallback frame.jobConfig →
        (input.mint input.accountId input.runId job.id (callbackTokenTtl frame.jobConfig)).isSome) ∧
      (input.manual = true ∨ settings.jitterWindowSeconds ≤ 0 ∨ 1 / 10 ≤ settings.jitterWindowSeconds) ∧
      .otherError ∉ answers := by
  unfold launch at h
  split at h
  · -- no record
    rename_i hmint
    split at h <;> cases h
    refine iff_of_false ?_ ?_
    · rintro ⟨row, hrows, -⟩
      simpa using congrArg List.length hrows
    · rintro ⟨hminted, -⟩
      have hsome := hminted hmint.1
      rw [Option.isNone_iff_eq_none.mp hmint.2] at hsome
      cases hsome
  · rename_i hmint
    have hminted : usesFeishuCallback frame.jobConfig →
        (input.mint input.accountId input.runId job.id (callbackTokenTtl frame.jobConfig)).isSome := by
      intro huses
      rw [Option.isSome_iff_ne_none]
      simpa [huses] using hmint
    obtain ⟨started, hstart, h⟩ := Option.bind_eq_some_iff.mp h
    split at h
    · -- the division by zero leaves a running record
      rename_i hjitter
      split at h <;> cases h
      rename_i hnone
      refine iff_of_false ?_ ?_
      · rintro ⟨row', hrows', -, hrunning⟩
        obtain ⟨row, hrows, -, -, -, hstatus, -⟩ := RunLedger.rows_startRun hstart
        obtain rfl : row = row' := by
          rw [hrows] at hrows'
          exact List.singleton_injective (List.append_cancel_left hrows')
        have hdispatch := hrunning hstatus
        rw [hnone] at hdispatch
        cases hdispatch
      · rintro ⟨-, hmanual | hwindow, -⟩
        · exact hjitter.1 hmanual
        · exact jobJitterSeconds_isNone.mp hjitter.2 hwindow
    · rename_i hjitter
      rw [accounted_settle hfresh hstart h]
      refine ⟨fun hnone => ⟨hminted, ?_, hnone⟩, fun hfits => hfits.2.2⟩
      by_cases hmanual : input.manual = true
      · exact .inl hmanual
      · refine .inr ?_
        by_contra hwindow
        exact hjitter ⟨hmanual, jobJitterSeconds_isNone.mpr hwindow⟩

end Records

/-- A claimed fire of an existing account accounts for itself exactly when it fits. -/
theorem accounted_iff_fits (settings : FireSettings) (input : FireInput) (ledger ledger' : RunLedger)
    (answers : List Answer) (fireEnd : FireEnd) (hfresh : ∀ row ∈ ledger.rows, row.runId ≠ input.runId)
    (hclaimed : input.Claimed) (haccount : input.account.isSome)
    (hfire : fire settings input ledger answers = some (fireEnd, ledger')) :
    Accounted settings input answers ledger ledger' ↔ Fits settings input ledger answers := by
  obtain ⟨hwon, job, hjob, hactive⟩ := hclaimed
  obtain ⟨account, haccount⟩ := Option.isSome_iff_exists.mp haccount
  have hpaused : ¬ (¬ input.manual = true ∧ job.status ≠ .active) := by
    rintro ⟨hmanual, hpaused⟩
    exact hactive.elim hmanual hpaused
  have hjob' : input.job = some job := hjob
  simp only [fire, hjob', if_neg hpaused, hwon, not_true_eq_false, if_false, haccount] at hfire
  split at hfire
  · rename_i hdisabled
    split at hfire <;> cases hfire
    refine iff_of_true (accounted_recordRun hfresh (by simp) _) ?_
    intro j _ a ha hstatus
    rw [haccount] at ha
    cases ha
    exact absurd hstatus hdisabled
  · rename_i hstatus
    split at hfire
    · rename_i hbusy
      split at hfire <;> cases hfire
      refine iff_of_true (accounted_recordRun hfresh (by simp) _) ?_
      intro j _ a _ _ hidle
      exact absurd hbusy hidle
    · rename_i hidle
      split at hfire
      · rename_i hframe
        split at hfire <;> cases hfire
        refine iff_of_true (accounted_recordRun hfresh (by simp) _) ?_
        intro j hj a _ _ _ frame hf
        rw [hjob'] at hj
        cases hj
        rw [hframe] at hf
        cases hf
      · rename_i frame hframe
        rw [accounted_launch hfresh hfire]
        constructor
        · intro hfits j hj a _ _ _ f hf
          rw [hjob'] at hj
          cases hj
          rw [hframe] at hf
          cases hf
          exact hfits
        · intro hfits
          exact hfits job hjob account haccount (not_not.mp hstatus) hidle frame hframe

def nightlyJob : DataPlane.ScheduledJobDefinition where
  id := "job"
  name := "nightly"
  prompt := "report"
  trigger := .cron "0 2 * * *"
  timezone := "UTC"
  createdAt := .ofText "1"
  updatedAt := .ofText "1"

def nightlyFire : FireInput where
  accountId := "account"
  jobId := "job"
  job := some nightlyJob
  account := some
    { accountId := "account", username := "user", passwordHash := "", createdAt := "1", updatedAt := "1" }
  runId := "run"
  now := 100
  hash := 7
  mint _ _ _ _ := some "token"

/-- The pod does not come up in time, then the dial fails, and then the run is admitted. -/
def thirdAttempt : List Answer :=
  [.opened, .status "Asleep" "", .patched, .clock 0, .clock 61, .status "Running" "10.0.0.1", .transportError,
    .status "Running" "10.0.0.1", .response 202, .closed]

theorem accounted_iff_fits_thirdAttempt :
    ∃ fireEnd ledger', fire {} nightlyFire { jobs := ["job"] } thirdAttempt = some (fireEnd, ledger') ∧
      Accounted {} nightlyFire thirdAttempt { jobs := ["job"] } ledger' := by
  obtain ⟨⟨fireEnd, ledger'⟩, hfire⟩ := Option.isSome_iff_exists.mp
    (show (fire {} nightlyFire { jobs := ["job"] } thirdAttempt).isSome by decide +kernel)
  refine ⟨fireEnd, ledger', hfire, (accounted_iff_fits {} nightlyFire { jobs := ["job"] } ledger' thirdAttempt
    fireEnd (fun _ h => by cases h) (by decide) (by decide) hfire).mpr ?_⟩
  intro job hjob account _ _ _ frame hframe
  cases hjob
  cases hframe
  exact ⟨fun h => (by cases h), by decide +kernel, by decide +kernel⟩

/-- The API server of Kubernetes can not be reached: no `ApiException`. -/
theorem not_accounted_unreachable :
    nightlyFire.Claimed ∧ ∃ ledger', fire {} nightlyFire { jobs := ["job"] } [.opened, .otherError] =
        some (.raised, ledger') ∧
      ¬ Accounted {} nightlyFire [.opened, .otherError] { jobs := ["job"] } ledger' := by
  refine ⟨by decide, ?_⟩
  have hraised : (fire {} nightlyFire { jobs := ["job"] } [.opened, .otherError]).map
      (fun r => (r.1, r.2.rows.map (·.status))) = some (.raised, [.running]) := by decide +kernel
  obtain ⟨⟨fireEnd, ledger'⟩, hfire, hrows⟩ := Option.map_eq_some_iff.mp hraised
  obtain ⟨rfl, hrows⟩ := Prod.mk.inj hrows
  refine ⟨ledger', hfire, ?_⟩
  rintro ⟨row, hrow, -, hrunning⟩
  change ledger'.rows = [row] at hrow
  rw [hrow] at hrows
  have hdispatch := hrunning (List.singleton_injective hrows)
  exact absurd hdispatch (by decide)

end PrivaCloud.Scheduler.FireRecords
