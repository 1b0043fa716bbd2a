import PrivaCloud.DataPlane.Transport

/-!
# Authorization of the served RPCs

The interceptor of `data-spine` and the handlers behind it that an agent-runner may reach. Every RPC
of the surface is a `Method`; the allow-list says how the ownership of its request is judged.
-/

namespace PrivaCloud.DataPlane

open Framework
open DataSpine (RunStatus)

inductive TenantMethod
  | healthz
  | readyz
  | accountGet
  | getByUsername
  | quotaGet
  | quotaSet
  | hookPolicyList
  | runnerDefaultsGet
  | listJobs
  | createJob
  | getJob
  | updateJob
  | deleteJob
  | setJobStatus
  | listRuns
  | getRun
  | getLatestRun
  | finishRun

inductive ControlPlaneMethod
  | accountList
  | accountCreate
  | accountUpdate
  | accountDelete
  | verifyPassword
  | findByApiKey
  | countAdmins
  | findByFeishuUserId
  | hasUsers
  | stats
  | bind
  | rebind
  | claimFirstRunIM
  | getBinding
  | listBindings
  | setDisplay
  | feishuGet
  | feishuSetUser
  | feishuSetAdmin
  | feishuSetStatus
  | feishuList
  | feishuListEffective
  | getFeishuSecret
  | createLinkCode
  | bindOwnerWithCode
  | unbindOwner
  | getPlatformConfig
  | setPlatformConfig
  | hookPolicyGet
  | hookPolicyUpsert
  | hookPolicyDelete
  | registrationCreate
  | registrationList
  | registrationGet
  | registrationSetStatus
  | resourceSpecGet
  | resourceSpecSet
  | resourceSpecList
  | runnerDefaultsSet
  | listActiveJobs
  | startRun
  | recordRun
  | deleteRunsBefore
  | claimJobFire
  | pruneFiresBefore

inductive Method
  | tenant (method : TenantMethod)
  | controlPlane (method : ControlPlaneMethod)

inductive Scope
  | none
  | reqAccount
  | respAccount
  | job
  | run
  | ensureOnly
  deriving DecidableEq

/-- `TENANT_ACL` -/
def tenantAcl : Method → Option Scope
  | .tenant .healthz | .tenant .readyz | .tenant .hookPolicyList | .tenant .runnerDefaultsGet =>
    some .none
  | .tenant .accountGet | .tenant .quotaGet | .tenant .listJobs | .tenant .createJob
  | .tenant .listRuns | .tenant .getRun | .tenant .getLatestRun => some .reqAccount
  | .tenant .getByUsername => some .respAccount
  | .tenant .quotaSet => some .ensureOnly
  | .tenant .getJob | .tenant .updateJob | .tenant .deleteJob | .tenant .setJobStatus => some .job
  | .tenant .finishRun => some .run
  | .controlPlane _ => Option.none

inductive Cursor
  | absent
  | malformed
  | at (startedAt runId : String)

/-- The fields of the requests; one that a message does not have is empty. -/
structure Request where
  accountId : String := ""
  jobId : String := ""
  runId : String := ""
  username : String := ""
  updateMask : List String := []
  tier : String := ""
  maxConcurrentSessions : Int := 0
  idleGraceSeconds : Int := 0
  enabledOnly : Bool := false
  name : String := ""
  prompt : String := ""
  trigger : Option TriggerConfig := none
  jobConfig : Option JobConfig := none
  timezone : String := ""
  model : String := ""
  status : String := ""
  limit : Int := 0
  before : Cursor := .absent
  after : Cursor := .absent
  finishedAt : String := ""
  durationMs : Int := 0
  isError : Bool := false
  errorMessage : String := ""
  numTurns : Int := 0
  resultSummary : String := ""
  sessionId : String := ""

/-- `_acct_pb`; the hash of the password leaves as a digest. -/
structure AccountPb where
  accountId : String
  username : String
  role : Role
  status : AccountStatus
  apiKey : String
  feishuUserId : String
  feishuDisplayName : String
  createdAt : String
  updatedAt : String
  agentRunnerType : RunnerType
  passwordEpoch : String

structure RunPage where
  runs : List JobRunRecord
  nextCursor : Option (String × String)
  prevCursor : Option (String × String)
  total : Option Nat

inductive Response
  | text (detail : String)
  | flag (value : Bool)
  | account (user : Option AccountPb)
  | quota (quota : Option QuotaRow)
  | hookPolicies (items : List HookPolicyRow)
  | runnerDefaults (columns : List Int)
  | job (definition : Option ScheduledJobDefinition)
  | jobs (definitions : List ScheduledJobDefinition)
  | run (record : Option JobRunRecord)
  | runPage (page : RunPage)

/-- What the handlers take from outside the store: the encryption of the API keys, the digest of the
password hashes, the defaults of the settings, the clock and the made-up ids. -/
structure Env where
  decryptValue : String → Option String
  passwordEpoch : String → String
  seedValues : List Int
  now : IsoTime
  minted : Minted

namespace Store

/-- `LIMIT n`; a negative one is no limit. -/
def sqlLimit {α : Type} (n : Int) (rows : List α) : List α := if n < 0 then rows else rows.take n.toNat

/-- `rows[:n]` -/
def slice {α : Type} (n : Int) (rows : List α) : List α :=
  if n < 0 then rows.take (rows.length - (-n).toNat) else rows.take n.toNat

/-- The conditions of `run_list`. -/
def selected (accountId jobId status : String) (before after : Option (String × String)) (row : RunRow) :
    Bool :=
  row.accountId = accountId && (jobId = "" || row.jobId = some jobId) &&
    (status = "" || row.status.text = status) &&
    match before, after with
    | some (t, id), _ => row.startedAt.text < t || row.startedAt.text = t && row.runId < id
    | none, some (t, id) => row.startedAt.text > t || row.startedAt.text = t && row.runId > id
    | none, none => true

def runList (s : Store) (accountId : String) (limit : Int) (before after : Option (String × String))
    (jobId status : String) : List RunRow × Bool :=
  let ascending := before.isNone && after.isSome
  let rows := s.runs.rows.filter (selected accountId jobId status before after)
  let sorted := rows.insertionSort fun a b => if ascending then newer b a || a = b else newer a b || a = b
  let fetched := sqlLimit (limit + 1) sorted
  let page := slice limit fetched
  (if ascending then page.reverse else page, decide (limit < fetched.length))

def runCount (s : Store) (accountId : String) : Nat :=
  (s.runs.rows.filter fun row => row.accountId = accountId).length

/-- `INSERT OR IGNORE` -/
def quotaInsert (s : Store) (row : QuotaRow) : Option Store :=
  if (s.quotas.find? row.accountId).isSome then some s
  else if (s.accounts.find? row.accountId).isSome then
    (s.quotas.insert row).map fun quotas => { s with quotas := quotas }
  else none

def accountGetByUsername (s : Store) (username : String) : Option AccountRow :=
  s.accounts.rows.find? fun row => row.username = username

/-- `ORDER BY id ASC` -/
def hookPolicyList (s : Store) (enabledOnly : Bool) : List HookPolicyRow :=
  (s.hookPolicies.rows.filter fun row => !enabledOnly || row.enabled).insertionSort
    fun a b => a.id ≤ b.id

end Store

def computeCursors (rows : List RunRow) (before after : Option (String × String)) (hasMore : Bool) :
    Option (String × String) × Option (String × String) :=
  let key (row : RunRow) := (row.startedAt.text, row.runId)
  match rows.head?.map key, rows.getLast?.map key with
  | some first, some last =>
    if after.isSome then (some last, if hasMore then some first else none)
    else if before.isSome then (if hasMore then some last else none, some first)
    else (if hasMore then some last else none, none)
  | _, _ => (none, none)

/-- `decode_cursor`, on a cursor that is there. -/
def Cursor.decode : Cursor → Option (Option (String × String))
  | .absent => some none
  | .malformed => none
  | .at startedAt runId => some (some (startedAt, runId))

namespace Handlers

/-- The API key of a row, or nothing when it can not be decrypted. -/
def plainApiKey (env : Env) (row : AccountRow) : Option String :=
  match truthy row.apiKey with
  | none => some ""
  | some key => env.decryptValue key

/-- `_acct_pb` of `_to_user`, with the key that was decrypted. -/
def accountPb (env : Env) (row : AccountRow) (apiKey : String) : AccountPb where
  accountId := row.accountId
  username := row.username
  role := row.role
  status := row.status
  apiKey := apiKey
  feishuUserId := orEmpty row.feishuUserId
  feishuDisplayName := orEmpty row.feishuDisplayName
  createdAt := row.createdAt
  updatedAt := row.updatedAt
  agentRunnerType := row.agentRunnerType
  passwordEpoch := env.passwordEpoch row.passwordHash

def account (env : Env) (s : Store) (row : Option AccountRow) : Outcome Response :=
  match row with
  | none => (some (.account none), s)
  | some row => ((plainApiKey env row).map fun key => .account (some (accountPb env row key)), s)

/-- The columns that the mask of `QuotaService/Set` names. -/
def quotaFields (env : Env) (m : Request) (row : QuotaRow) : QuotaRow :=
  if "tier" ∈ m.updateMask ∨ "max_concurrent_sessions" ∈ m.updateMask ∨ "idle_grace_seconds" ∈ m.updateMask then
    { row with
      tier := if "tier" ∈ m.updateMask then m.tier else row.tier
      maxConcurrentSessions := if "max_concurrent_sessions" ∈ m.updateMask then
        m.maxConcurrentSessions else row.maxConcurrentSessions
      idleGraceSeconds := if "idle_grace_seconds" ∈ m.updateMask then
        m.idleGraceSeconds else row.idleGraceSeconds
      updatedAt := env.now.text }
  else row

@[simp] theorem quotaFields_accountId (env : Env) (m : Request) (row : QuotaRow) :
    (quotaFields env m row).accountId = row.accountId := by
  unfold quotaFields
  split <;> rfl

def quotaSet (env : Env) (s : Store) (m : Request) : Outcome Response :=
  match s.quotaInsert { accountId := m.accountId, updatedAt := env.now.text } with
  | none => (none, s)
  | some s' =>
    let s'' := { s' with
      quotas := s'.quotas.modify m.accountId (quotaFields env m) (quotaFields_accountId env m) }
    (some (.quota (s''.quotas.find? m.accountId)), s'')

def runnerDefaultsGet (env : Env) (s : Store) : Outcome Response :=
  match s.runnerDefaults with
  | some columns => (some (.runnerDefaults columns), s)
  | none => (some (.runnerDefaults env.seedValues), { s with runnerDefaults := some env.seedValues })

/-- The request of `CreateJob` or `UpdateJob`. -/
def jobRequest (m : Request) : JobRequest where
  accountId := m.accountId
  jobId := m.jobId
  name := m.name
  prompt := m.prompt
  trigger := m.trigger
  jobType := none
  jobConfig := m.jobConfig
  timezone := m.timezone
  model := m.model
  status := m.status

def createJob (env : Env) (s : Store) (m : Request) : Outcome Response :=
  match defnFromReq (jobRequest m) (if m.jobId = "" then env.minted.id else m.jobId) env.now with
  | none => (none, s)
  | some d => SchedulerServicer.answer .job (SchedulerService.createJob s m.accountId d env.now)

def updateJob (env : Env) (s : Store) (m : Request) : Outcome Response :=
  match SchedulerService.getJob s m.jobId with
  | none => (some (.job none), s)
  | some _ =>
    match defnFromReq (jobRequest m) m.jobId env.now with
    | none => (none, s)
    | some d => SchedulerServicer.answer .job (SchedulerService.updateJob s m.jobId d env.now)

def statusFields (env : Env) (status : JobStatus) (row : JobRow) : JobRow :=
  { row with status := status, updatedAt := env.now }

@[simp] theorem statusFields_jobId (env : Env) (status : JobStatus) (row : JobRow) :
    (statusFields env status row).jobId = row.jobId := rfl

/-- `set_job_status`; the column checks the status. -/
def setJobStatus (env : Env) (s : Store) (m : Request) : Outcome Response :=
  match JobStatus.parse m.status with
  | none => if (s.jobGet m.jobId).isSome then (none, s) else (some (.job none), s)
  | some status =>
    let s' := s.jobUpdate m.jobId (statusFields env status) (statusFields_jobId env status)
    (some (.job (SchedulerService.getJob s' m.jobId)), s')

def listRuns (s : Store) (m : Request) : Outcome Response :=
  match m.before.decode, m.after.decode with
  | some before, some after =>
    let (rows, hasMore) :=
      s.runList m.accountId (if m.limit = 0 then 50 else m.limit) before after m.jobId m.status
    let (nextCursor, prevCursor) := computeCursors rows before after hasMore
    (some (.runPage {
      runs := rows.map SchedulerService.toRun
      nextCursor := nextCursor
      prevCursor := prevCursor
      total := if m.jobId = "" ∧ m.status = "" then some (s.runCount m.accountId) else none }), s)
  | _, _ => (none, s)

def finishRun (env : Env) (s : Store) (m : Request) : Outcome Response :=
  match RunStatus.parse m.status with
  | none => (none, s)
  | some status => SchedulerServicer.answer .run <| SchedulerService.finishRun s
      { runId := m.runId
        jobId := ""
        jobName := ""
        username := ""
        startedAt := env.now
        finishedAt := IsoTime.parse m.finishedAt
        status := status
        durationMs := zeroNone m.durationMs
        isError := m.isError
        errorMessage := orNone m.errorMessage
        numTurns := zeroNone m.numTurns
        resultSummary := orNone m.resultSummary
        sessionId := orNone m.sessionId }

def handle (env : Env) (s : Store) (m : Request) : TenantMethod → Outcome Response
  | .healthz => (some (.text "ok"), s)
  | .readyz => (some (.flag true), s)
  | .accountGet => account env s (s.accounts.find? m.accountId)
  | .getByUsername => account env s (s.accountGetByUsername m.username)
  | .quotaGet => (some (.quota (s.quotas.find? m.accountId)), s)
  | .quotaSet => quotaSet env s m
  | .hookPolicyList => (some (.hookPolicies (s.hookPolicyList m.enabledOnly)), s)
  | .runnerDefaultsGet => runnerDefaultsGet env s
  | .listJobs => (some (.jobs ((s.jobListByAccount m.accountId).map SchedulerService.toJob)), s)
  | .createJob => createJob env s m
  | .getJob => (some (.job (SchedulerService.getJob s m.jobId)), s)
  | .updateJob => updateJob env s m
  | .deleteJob => (some (.flag (s.jobGet m.jobId).isSome), s.jobDelete m.jobId)
  | .setJobStatus => setJobStatus env s m
  | .listRuns => listRuns s m
  | .getRun => (some (.run (SchedulerService.getRun s m.accountId m.runId)), s)
  | .getLatestRun => (some (.run (SchedulerService.getLatestRun s m.accountId m.jobId)), s)
  | .finishRun => finishRun env s m

end Handlers

/-- A `ServicePrincipal` of the tenant role; `verify_service` refuses one without an account. -/
structure TenantPrincipal where
  accountId : String
  nonempty : accountId ≠ ""

namespace AuthzInterceptor

def ownsJob (s : Store) (accountId jobId : String) : Bool :=
  ((s.jobListByAccount accountId).map SchedulerService.toJob).any fun d => d.id = jobId

def ownsRun (s : Store) (accountId runId : String) : Bool :=
  (SchedulerService.getRun s accountId runId).isSome

/-- `_authorize`, for a caller that is not of the control plane. -/
def authorize (s : Store) (principal : TenantPrincipal) (m : Request) : Option Scope → Bool
  | none => false
  | some .none | some .respAccount => true
  | some .reqAccount => m.accountId = principal.accountId
  | some .ensureOnly => m.accountId = principal.accountId && m.updateMask.isEmpty
  | some .job => ownsJob s principal.accountId m.jobId
  | some .run => ownsRun s principal.accountId m.runId

/-- `response.account_id`, where the response has one. -/
def replied : Response → String
  | .account (some user) => user.accountId
  | .quota (some quota) => quota.accountId
  | _ => ""

/-- The wrapper of a method; a response of another account is dropped. -/
def serve (env : Env) (s : Store) (principal : TenantPrincipal) (method : Method) (m : Request) :
    Outcome Response :=
  if authorize s principal m (tenantAcl method) then
    match method with
    | .controlPlane _ => (none, s)
    | .tenant tenantMethod =>
      let outcome := Handlers.handle env s m tenantMethod
      match outcome.1 with
      | none => outcome
      | some response =>
        if tenantAcl method = some .respAccount ∧ replied response ≠ "" ∧
            replied response ≠ principal.accountId then
          (none, outcome.2)
        else outcome
  else (none, s)

end AuthzInterceptor

end PrivaCloud.DataPlane
