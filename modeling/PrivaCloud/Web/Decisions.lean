import PrivaCloud.Framework.Dict
import PrivaCloud.Framework.Outstanding

/-!
# Pending decisions

The permission handling of `useSSE.js` and `chatStore.js`: a slot for a plan, one for questions, one for a
permission with a queue behind it, and the answers of the cards over the socket or by a POST. Next to the client
stand the requests that it has received and that are not settled.
-/

namespace PrivaCloud.Web

open Framework

/-- The data of a `permission_request`. -/
structure PermissionRequest where
  requestId : String
  /-- a UUID -/
  requestId_ne : ¬requestId = ""
  toolUseId : Option String := none
  toolName : String
  /-- `input.questions` -/
  questions : Option (List String) := none
  deriving DecidableEq

inductive DecisionKind
  | plan
  | ask
  | permission
  deriving DecidableEq

namespace PermissionRequest

variable (r : PermissionRequest)

def kind : DecisionKind :=
  if r.toolName = "ExitPlanMode" then .plan
  else if r.toolName = "AskUserQuestion" ∧ r.questions.isSome then .ask
  else .permission

end PermissionRequest

inductive PermissionDecision
  | allow
  | deny
  deriving DecidableEq

/-- `_submittedAnswer` -/
inductive Submitted
  | answer (text : String)
  | declined
  deriving DecidableEq

/-- `pendingAskUser` -/
structure AskBlock where
  /-- `questions`, `_permissionRequestId`, `toolUseId` -/
  request : PermissionRequest
  submitted : Option Submitted := none
  deriving DecidableEq

structure DecisionSlots where
  pendingPermission : Option PermissionRequest := none
  permissionQueue : List PermissionRequest := []
  pendingAskUser : Option AskBlock := none
  /-- by the request of the plan -/
  pendingPlanApproval : Option PermissionRequest := none

/-- What takes an answer: `wsSendPermission`, else `respondPermissionAPI` if there is a stream id. -/
inductive AnswerChannel
  | socket
  | post
  | offline
  deriving DecidableEq

inductive PostKind
  /-- `resolvePermission` -/
  | permission
  /-- `clearPendingAskUser` -/
  | ask
  deriving DecidableEq

structure AnswerPost where
  kind : PostKind
  requestId : String

/-- An answer that was given on the card of a request; without a request id, as a message. -/
structure SentAnswer where
  card : String
  requestId : Option String
  decision : PermissionDecision

structure DecisionWorld where
  chat : DecisionSlots := {}
  /-- the POSTs without a response yet -/
  posts : List AnswerPost := []
  sent : List SentAnswer := []
  /-- every request that was ever received -/
  received : List PermissionRequest := []
  /-- received and not yet settled -/
  outstanding : List PermissionRequest := []

inductive DecisionEvent
  | request (r : PermissionRequest)
  /-- `permission_resolved`, `permission_timeout` -/
  | resolved (requestId : Option String)
  /-- on the card of a permission -/
  | respond (card : String) (decision : PermissionDecision) (channel : AnswerChannel)
  /-- on the card of questions -/
  | sendAnswer (card : String) (text : String) (channel : AnswerChannel)
  | decline (card : String) (channel : AnswerChannel)
  /-- on the card of the plan -/
  | approvePlan (channel : AnswerChannel) (newSession : Bool)
  /-- a POST has a response -/
  | posted (i : Nat) (ok : Bool)

namespace DecisionSlots

variable (chat : DecisionSlots)

/-- `permission_request` -/
def onRequest (r : PermissionRequest) : DecisionSlots :=
  match r.kind with
  | .plan =>
    if chat.pendingPlanApproval.map (·.requestId) = some r.requestId then chat
    else { chat with pendingPlanApproval := some r }
  | .ask =>
    if chat.pendingAskUser.map (·.request.requestId) = some r.requestId then chat
    else { chat with pendingAskUser := some { request := r } }
  | .permission =>
    if chat.pendingPermission.map (·.requestId) = some r.requestId ∨
        chat.permissionQueue.any (·.requestId = r.requestId) then chat
    else if chat.pendingPermission.isSome then { chat with permissionQueue := chat.permissionQueue ++ [r] }
    else { chat with pendingPermission := some r }

/-- It does not look at the id. -/
def resolvePermission : DecisionSlots :=
  { chat with
    pendingPermission := chat.permissionQueue.head?
    permissionQueue := chat.permissionQueue.tail }

/-- The plan and the questions, at `permission_resolved` and `permission_timeout`. -/
def clearSlots (requestId : String) : DecisionSlots :=
  { chat with
    pendingPlanApproval := chat.pendingPlanApproval.filter (·.requestId ≠ requestId)
    pendingAskUser := chat.pendingAskUser.filter (·.request.requestId ≠ requestId) }

/-- The permissions, at `permission_resolved` and `permission_timeout`. -/
def clearPermission (requestId : String) : DecisionSlots :=
  if chat.pendingPermission.map (·.requestId) = some requestId then chat.resolvePermission
  else { chat with permissionQueue := chat.permissionQueue.filter (·.requestId ≠ requestId) }

def clearMessages : DecisionSlots :=
  { chat with pendingPermission := none, permissionQueue := [], pendingPlanApproval := none }

end DecisionSlots

namespace DecisionWorld

variable (w : DecisionWorld)

def send (card requestId : String) (decision : PermissionDecision) (kind : PostKind) : AnswerChannel → DecisionWorld
  | .socket => { w with sent := w.sent ++ [⟨card, some requestId, decision⟩] }
  | .post => { w with
      sent := w.sent ++ [⟨card, some requestId, decision⟩]
      posts := w.posts ++ [⟨kind, requestId⟩] }
  | .offline => w

def respondPermission (requestId : String) (decision : PermissionDecision) (channel : AnswerChannel) : DecisionWorld :=
  w.send requestId requestId decision .permission channel

def setAskUser (a : AskBlock) (submitted : Submitted) (channel : AnswerChannel) : DecisionWorld :=
  if channel = .socket then { w with chat := { w.chat with pendingAskUser := some { a with submitted := some submitted } } }
  else w

/-- The answer goes by what is pending, not by the card. -/
def sendAnswer (card text : String) (channel : AnswerChannel) : DecisionWorld :=
  match w.chat.pendingAskUser with
  | some a => (w.send card a.request.requestId .allow .ask channel).setAskUser a (.answer text) channel
  | none =>
    { w with
      chat := { w.chat with pendingAskUser := none }
      sent := w.sent ++ [⟨card, none, .allow⟩] }

def declineAskUser (card : String) (channel : AnswerChannel) : DecisionWorld :=
  match w.chat.pendingAskUser with
  | some a => (w.send card a.request.requestId .deny .ask channel).setAskUser a .declined channel
  | none => w

/-- `handlePlanApproval` -/
def approvePlan (channel : AnswerChannel) (newSession : Bool) : DecisionWorld :=
  match w.chat.pendingPlanApproval with
  | some r =>
    let w := w.respondPermission r.requestId .allow channel
    let chat := { w.chat with pendingPlanApproval := none }
    { w with chat := if newSession then chat.clearMessages else chat }
  | none => w

def onPosted (post : AnswerPost) : DecisionWorld :=
  { w with
    chat := match post.kind with
      | .permission => w.chat.resolvePermission
      | .ask => { w.chat with pendingAskUser := none }
    outstanding := settle PermissionRequest.requestId w.outstanding post.requestId }

def step (w : DecisionWorld) : DecisionEvent → Option DecisionWorld
  | .request r =>
    -- an id names one request
    if ∀ r' ∈ w.received, r'.requestId = r.requestId → r' = r then
      some { w with
        chat := w.chat.onRequest r
        received := r :: w.received
        outstanding := receive PermissionRequest.requestId w.outstanding r }
    else none
  | .resolved requestId =>
    match truthy requestId with
    | none => some w
    | some requestId =>
      some { w with
        chat := (w.chat.clearSlots requestId).clearPermission requestId
        outstanding := settle PermissionRequest.requestId w.outstanding requestId }
  | .respond card decision channel =>
    if ∃ r ∈ w.received, r.requestId = card ∧ r.kind = .permission then
      some (w.respondPermission card decision channel)
    else none
  | .sendAnswer card text channel => some (w.sendAnswer card text channel)
  | .decline card channel => some (w.declineAskUser card channel)
  | .approvePlan channel newSession => some (w.approvePlan channel newSession)
  | .posted i ok =>
    match w.posts[i]? with
    | some post =>
      let w := { w with posts := w.posts.eraseIdx i }
      some (if ok then w.onPosted post else w)
    | none => none

end DecisionWorld

end PrivaCloud.Web
