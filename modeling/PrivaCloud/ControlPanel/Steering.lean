import PrivaCloud.AskUser.AnswerText
import PrivaCloud.ControlPanel.Accounts
import PrivaCloud.Framework.Processes

/-!
# Steering of runtime requests

The external processor authenticates a request, resolves the address of a pod from the status of the
AgentTenant, and steers the gateway there. A Runner checks the token that is sent along against its own
account; a Terminal trusts a header.
-/

namespace PrivaCloud.ControlPanel

open Framework AskUser

structure TokenPayload where
  sub : Text
  pwd : Text

/-- The settings, and what libraries do. -/
structure EdgeEnv where
  /-- `decode_jwt`, if it does not raise -/
  decodeJwt : Text → Option TokenPayload
  globalApiKey : Text
  allowedWsOrigins : List Text
  /-- `base64.urlsafe_b64decode` with its padding, and UTF-8 -/
  decodeTarget : Text → Option Text
  /-- the path of `urlparse` -/
  urlPath : Text → Text

/-- The headers of a request, empty where there are none. -/
structure EdgeRequest where
  header : String → Text

namespace EdgeRequest

variable (env : EdgeEnv) (request : EdgeRequest)

/-- `value.split(",")`, each stripped -/
def protocols : List Text :=
  ((request.header "sec-websocket-protocol").splitOn ',').map (strip pySpace)

def offered (start : Text) : Option Text :=
  (request.protocols.find? start.isPrefixOf).map fun protocol => protocol.drop start.length

/-- The bearer token, or the one of the subprotocol. -/
def token : Text :=
  let auth := request.header "authorization"
  let bearer := if (auth.take 7).map Char.toLower = "bearer ".toList then auth.drop 7 else []
  if bearer ≠ [] then bearer else (request.offered "priva.token.".toList).getD []

/-- `_target_username_from_subprotocol` -/
def target : Option Text :=
  match request.offered "priva.target.".toList with
  | none => none
  | some raw => if raw = [] then none else (env.decodeTarget raw).filter (· ≠ [])

def isTerminal : Bool :=
  let path := env.urlPath (request.header ":path")
  path = "/api/terminal".toList || "/api/terminal/".toList.isPrefixOf path

def crossOrigin : Bool :=
  (request.header "upgrade").map Char.toLower = "websocket".toList &&
    (env.allowedWsOrigins ≠ [] && request.header "origin" ≠ [] &&
      request.header "origin" ∉ env.allowedWsOrigins)

end EdgeRequest

inductive PodKind
  | runner
  | terminal
  deriving DecidableEq

/-- A pod that listens on the port of its kind, and the `ACCOUNT_ID` it is pinned to. -/
structure Pod where
  kind : PodKind
  account : String
  deriving DecidableEq

/-- The part of a status that steers: `phase` and `podIP`, of the Runner or of the Terminal. -/
structure RuntimeStatus where
  phase : String := ""
  podIp : Option String := none

def RuntimeStatus.endpoint (st : RuntimeStatus) : Option String :=
  if st.phase = "Running" then truthy st.podIp else none

/-- The status of an account, as it is published or as the operator is about to write it. -/
structure StatusWrite where
  kind : PodKind
  account : String
  status : RuntimeStatus

inductive WakeState
  | patching
  | polling
  | done (ip : Option String)
  | raised

structure WakeTask where
  kind : PodKind
  account : String
  state : WakeState := .patching

def WakeTask.finished (task : WakeTask) : Bool :=
  match task.state with
  | .patching | .polling => false
  | .done _ | .raised => true

structure EdgeWorld where
  users : Accounts := {}
  terminalPercent : Int := 0
  statuses : List StatusWrite := []
  /-- what the operator has read and not yet written -/
  writes : List StatusWrite := []
  /-- by address -/
  pods : List (String × Pod) := []
  wakes : List WakeTask := []

def EdgeWorld.status (s : EdgeWorld) (kind : PodKind) (account : String) : RuntimeStatus :=
  ((s.statuses.find? fun e => e.kind = kind ∧ e.account = account).map StatusWrite.status).getD {}

/-- Join the wake of an account that runs, or start one. -/
def EdgeWorld.join (s : EdgeWorld) (kind : PodKind) (account : String) : EdgeWorld × Nat :=
  match s.wakes.findIdx? fun task => task.kind = kind && task.account = account && !task.finished with
  | some i => (s, i)
  | none => ({ s with wakes := s.wakes ++ [{ kind := kind, account := account }] }, s.wakes.length)

/-- Who has been let through, and the account that an administrator has named. -/
structure Grant where
  user : UserRecord
  target : Option UserRecord := none

namespace Grant

/-- The account whose pod is asked for. -/
def subject (g : Grant) : UserRecord := g.target.getD g.user

def account (g : Grant) : String := g.subject.accountId

end Grant

/-- A request, up to the pod that accepts it. -/
inductive EdgeCall
  | authenticating (payload : TokenPayload)
  | findingKey
  | actingAs
  | targeting (user : UserRecord) (name : Text)
  | checkingTerminal (g : Grant)
  | resolving (kind : PodKind) (g : Grant)
  | probing (kind : PodKind) (g : Grant) (ip : String)
  | waiting (kind : PodKind) (g : Grant) (wake : Nat)
  | steered (kind : PodKind) (g : Grant) (ip : String)
  | accepted (g : Grant) (pod : Pod)
  | ended (code : Nat) (message : String)

structure EdgeProcess where
  request : EdgeRequest
  call : EdgeCall

/-- What the environment decides about a section: a remote call raises, a pod answers its probe, a runner
token is too old. -/
structure EdgeAnswer where
  raised : Bool := false
  alive : Bool := true
  expired : Bool := false

namespace EdgeCall

variable (env : EdgeEnv) (request : EdgeRequest)

def service : PodKind → String
  | .runner => "agent sandbox"
  | .terminal => "web terminal"

def unavailable (kind : PodKind) : EdgeCall := .ended 503 (service kind ++ " unavailable, retry shortly")

def waking (kind : PodKind) : EdgeCall := .ended 503 (service kind ++ " is waking, retry in a moment")

def unauthenticated : EdgeCall := .ended 401 "Authentication required"

def revoked : EdgeCall := .ended 403 "account access revoked"

def enter : EdgeCall :=
  if request.crossOrigin env then .ended 403 "cross-origin websocket rejected"
  -- without a token nobody is authenticated, whatever the anonymous settings are
  else if request.token = [] then unauthenticated
  else
    match env.decodeJwt request.token with
    | some payload => .authenticating payload
    | none => .findingKey

def proceed (g : Grant) : EdgeCall :=
  if request.isTerminal env then .checkingTerminal g else .resolving .runner g

def authorize (user : UserRecord) : EdgeCall :=
  if user.accountId = "" then unauthenticated
  else if user.status ≠ .active then revoked
  else
    match request.target env with
    | none => proceed env request ⟨user, none⟩
    | some name =>
      if name = user.username then proceed env request ⟨user, none⟩
      else if user.role ≠ .admin then .ended 403 "admin role required to open another account's console"
      else .targeting user name

/-- `assert_account_active`, for a credential that belongs to an account. -/
def gate (user : UserRecord) : EdgeCall :=
  if user.status ≠ .active then revoked else authorize env request user

def wake (s : EdgeWorld) (kind : PodKind) (g : Grant) : EdgeWorld × EdgeCall :=
  let joined := s.join kind g.account
  (joined.1, .waiting kind g joined.2)

/-- `_resolve` of the Runner, for the token of the grant. -/
def runnerAccepts (s : EdgeWorld) (g : Grant) (pod : Pod) : Bool :=
  if pod.account ≠ "" ∧ g.account ≠ pod.account then false
  else
    match s.users.getUser g.subject.username with
    | none => false
    | some user => !(pod.account ≠ "" && user.accountId ≠ "" && user.accountId ≠ pod.account)

def arrive (s : EdgeWorld) (kind : PodKind) (g : Grant) (ip : String) (answer : EdgeAnswer) : EdgeCall :=
  match getValue s.pods ip with
  | none => .ended 503 ""
  | some pod =>
    if pod.kind ≠ kind then .ended 503 ""
    else
      match kind with
      | .terminal => .accepted g pod
      | .runner =>
        if answer.expired then .ended 401 "Invalid runner token"
        else if runnerAccepts s g pod then .accepted g pod
        else .ended 403 "Runner token account mismatch"

def act (s : EdgeWorld) (answer : EdgeAnswer) : EdgeCall → Option (EdgeWorld × EdgeCall)
  | .authenticating payload =>
    if answer.raised then some (s, unauthenticated)
    else
      match s.users.getUser payload.sub with
      | some user =>
        if payload.pwd = user.passwordEpoch then some (s, gate env request user) else some (s, .findingKey)
      | none => some (s, .findingKey)
  | .findingKey =>
    -- a lookup that raises has found nobody
    match if answer.raised then none else s.users.findByApiKey request.token with
    | some user => some (s, gate env request user)
    | none =>
      if env.globalApiKey ≠ [] ∧ request.token = env.globalApiKey then some (s, .actingAs)
      else some (s, unauthenticated)
  | .actingAs =>
    let name := request.header "x-user-name"
    if answer.raised then some (s, unauthenticated)
    else
      match s.users.getUser (if name = [] then "admin".toList else name) with
      | some user => some (s, authorize env request { user with role := .admin })
      | none => some (s, unauthenticated)
  | .targeting user name =>
    if answer.raised then some (s, .ended 500 "")
    else
      match s.users.getUser name with
      | none => some (s, .ended 404 "target account not found")
      | some target =>
        if target.accountId = "" then some (s, .ended 404 "target account not found")
        else if target.status ≠ .active then some (s, .ended 403 "target account access revoked")
        else some (s, proceed env request ⟨user, some target⟩)
  | .checkingTerminal g =>
    if answer.raised ∨ s.terminalPercent ≤ 0 then some (s, .ended 403 "web terminal is disabled")
    else some (s, .resolving .terminal g)
  | .resolving kind g =>
    let st := s.status kind g.account
    if answer.raised then some (s, unavailable kind)
    else if kind = .terminal ∧ st.phase ∈ ["PendingRunnerRestart", "Draining", "DrainingLegacy"] then
      some (s, waking kind)
    else
      match st.endpoint with
      | some ip => some (s, .probing kind g ip)
      | none => some (wake s kind g)
  | .probing kind g ip => if answer.alive then some (s, .steered kind g ip) else some (wake s kind g)
  | .waiting kind g wake =>
    match s.wakes[wake]? with
    | some task =>
      match task.state with
      | .done (some ip) => some (s, .steered kind g ip)
      | .done none => some (s, waking kind)
      | .raised => some (s, unavailable kind)
      | .patching | .polling => none
    | none => none
  | .steered kind g ip => some (s, arrive s kind g ip answer)
  | .accepted _ _ | .ended _ _ => none

end EdgeCall

inductive WakeAnswer
  | ok
  | refused
  | expired
  | raised

/-- `_drive_wake` and `_drive_terminal_wake` -/
def EdgeWorld.driveWake (s : EdgeWorld) (task : WakeTask) (answer : WakeAnswer) : WakeState :=
  match task.state with
  | .patching =>
    match answer with
    | .ok => .polling
    | .refused => .done none
    | .expired => .patching
    | .raised => .raised
  | .polling =>
    match answer with
    | .ok =>
      match (s.status task.kind task.account).endpoint with
      | some ip => .done (some ip)
      | none => .polling
    | .expired => .done none
    | .refused | .raised => .raised
  | state => state

inductive EdgeOutside
  | accounts (users : Accounts)
  | percent (terminalPercent : Int)
  | wake (i : Nat) (answer : WakeAnswer)
  | observe (write : StatusWrite)
  | publish (i : Nat)
  | createPod (ip : String) (pod : Pod)
  | deletePod (ip : String)

namespace EdgeWorld

/-- The operator publishes an address only of a pod that it has seen. -/
def Observed (s : EdgeWorld) (write : StatusWrite) : Prop :=
  ∀ ip ∈ write.status.endpoint, getValue s.pods ip = some ⟨write.kind, write.account⟩

instance (s : EdgeWorld) (write : StatusWrite) : Decidable (s.Observed write) :=
  inferInstanceAs (Decidable (∀ ip ∈ write.status.endpoint, _))

def outside (s : EdgeWorld) : EdgeOutside → Option EdgeWorld
  | .accounts users => some { s with users := users }
  | .percent terminalPercent => some { s with terminalPercent := terminalPercent }
  | .wake i answer =>
    match s.wakes[i]? with
    | some task =>
      if task.finished then none
      else some { s with wakes := s.wakes.set i { task with state := s.driveWake task answer } }
    | none => none
  | .observe write => if s.Observed write then some { s with writes := s.writes ++ [write] } else none
  | .publish i =>
    match s.writes[i]? with
    | some write => some { s with
        statuses := write ::
          s.statuses.filter fun e => ¬ (e.kind = write.kind ∧ e.account = write.account)
        writes := s.writes.eraseIdx i }
    | none => none
  | .createPod ip pod =>
    -- an address is free, and the operator runs no pod without an account
    if getValue s.pods ip = none ∧ pod.account ≠ "" then some { s with pods := (ip, pod) :: s.pods } else none
  | .deletePod ip => some { s with pods := s.pods.filter (·.1 ≠ ip) }

end EdgeWorld

def steeringProgram (env : EdgeEnv) : Program EdgeWorld EdgeProcess EdgeRequest EdgeAnswer EdgeOutside where
  enter := fun request => ⟨request, EdgeCall.enter env request⟩
  act := fun s p answer => (p.call.act env p.request s answer).map fun next => (next.1, ⟨p.request, next.2⟩)
  outside := EdgeWorld.outside

end PrivaCloud.ControlPanel
