import Mathlib.Algebra.Group.Nat.Defs
import PrivaCloud.AskUser.AnswerText
import PrivaCloud.Framework.Processes

/-!
# Prompts on cards

The registry of the prompts that wait for a tap (`pending`), the turns of the worker that register, time out and
expire them, and `card_actions.handle`, which takes a tap, in one section, for the prompt that is registered under
its message.
-/

namespace PrivaCloud.ChannelConnector

open Framework AskUser

/-- The `act` of a button; `select`, which a dropdown carries, is none of them. -/
inductive CardAct
  | skip
  | allow
  | deny
  | submit

/-- A card action, with the person who taps and the prompt that the card showed to that person. -/
structure Tap where
  messageId : String
  openId : String := ""
  act : Option CardAct := none
  /-- the `option` of a `select_static` -/
  option : Option Text := none
  /-- `name` is `submit` -/
  submit : Bool := false
  formValue : Option FormValue := none
  person : String
  shown : Nat

def other : Text := ['_', '_', 'o', 't', 'h', 'e', 'r', '_', '_']

inductive PromptStatus
  | pending
  | answered
  | skipped
  | timeout
  | expired
  deriving DecidableEq

inductive PromptKind
  | askUser
  | permission
  deriving DecidableEq

/-- The part of a `permission_request` that the answer goes by. -/
structure PermissionRequest where
  requestId : String
  sessionId : String := ""
  kind : PromptKind := .askUser
  questions : List Question := []
  deriving DecidableEq

/-- A prompt whose card is posted; an embedded one is shown in the streaming card of its turn. -/
structure PendingPrompt where
  request : PermissionRequest
  accountId : String
  senderOpenId : String
  messageId : String
  embedded : Bool
  registeredAt : Nat
  status : PromptStatus := .pending
  reveal : Bool := false
  selected : Text := []
  /-- the tap by which `selected` was picked -/
  pick : Option Tap := none

inductive Decision
  | allow
  | deny
  deriving DecidableEq

/-- The call of `resolve_permission` for a prompt, and the taps that it comes from: the last one, and the one
that holds the answer. -/
structure Resolution where
  prompt : Nat
  accountId : String
  sessionId : String
  requestId : String
  decision : Decision
  /-- the questions and the answer of `updated_input` -/
  updatedInput : Option (List Question × Text)
  message : String
  tap : Tap
  source : Tap

structure PromptWorld where
  prompts : List PendingPrompt := []
  /-- `_BY_MESSAGE` and `_BY_REQUEST` -/
  byMessage : List (String × Nat) := []
  byRequest : List (String × Nat) := []
  /-- the `pending_prompt` of the streaming cards -/
  embeds : List (String × Nat) := []
  resolutions : List Resolution := []
  /-- the message ids that have been given out -/
  messageIds : List String := []

/-- `_TTL_SECONDS`, in nanoseconds -/
def promptTtl : Nat := 3600 * 10 ^ 9

namespace PromptWorld

variable (s : PromptWorld)

def getByMessage (messageId : String) : Option Nat := getValue s.byMessage messageId

def getByRequest (requestId : String) : Option Nat := getValue s.byRequest requestId

def pending (id : Nat) : Bool := s.prompts[id]?.any (·.status = .pending)

def stale (ttl now : Nat) (id : Nat) : Bool := s.prompts[id]?.any (·.registeredAt + ttl < now)

def settleIf (p : Nat → Bool) (status : PromptStatus) : List PendingPrompt :=
  s.prompts.mapIdx fun id prompt => if p id ∧ prompt.status = .pending then { prompt with status := status } else prompt

def sweep (ttl now : Nat) : PromptWorld :=
  let stale (e : String × Nat) := s.stale ttl now e.2
  { s with
    prompts := s.settleIf (fun id => s.stale ttl now id && ((s.byMessage ++ s.byRequest).map Prod.snd).contains id) .expired
    byMessage := s.byMessage.filter (!stale ·)
    byRequest := s.byRequest.filter (!stale ·) }

/-- `register`, after the sweep -/
def index (prompt : PendingPrompt) : PromptWorld :=
  { s with
    prompts := s.prompts ++ [prompt]
    byMessage := assign s.byMessage prompt.messageId s.prompts.length
    byRequest := assign s.byRequest prompt.request.requestId s.prompts.length
    embeds := if prompt.embedded then assign s.embeds prompt.messageId s.prompts.length else s.embeds }

/-- `register` for a prompt that is embedded or has a card of its own -/
def register (ttl : Nat) (prompt : PendingPrompt) : PromptWorld := (s.sweep ttl prompt.registeredAt).index prompt

/-- A prompt gets its last status, unless it has one, leaves both indexes (`discard`) and the card. -/
def settle (status : PromptStatus) (id : Nat) : PromptWorld :=
  match s.prompts[id]? with
  | none => s
  | some prompt =>
    { s with
      prompts := s.settleIf (· = id) status
      byMessage := s.byMessage.filter (·.1 ≠ prompt.messageId)
      byRequest := s.byRequest.filter (·.1 ≠ prompt.request.requestId)
      embeds := s.embeds.filter (·.2 ≠ id) }

def expirePrompts (issued : List Nat) : PromptWorld := issued.foldl (fun s id => s.settle .expired id) s

def clearPermission (requestId : String) : PromptWorld :=
  match (s.getByRequest requestId).filter s.pending with
  | none => s
  | some id => s.settle .timeout id

end PromptWorld

inductive CardFace
  | opened
  | skipped
  | answered (text : Text)

structure CardResponse where
  toast : String
  card : Option CardFace := none

namespace PromptWorld

variable (s : PromptWorld)

def finish (id : Nat) (prompt : PendingPrompt) (tap source : Tap) (decision : Decision) (answer : Option Text)
    (toast : String) (status : PromptStatus) (message : String := "") : PromptWorld × CardResponse :=
  let resolution : Resolution := {
    prompt := id
    accountId := prompt.accountId
    sessionId := prompt.request.sessionId
    requestId := prompt.request.requestId
    decision := decision
    updatedInput :=
      if decision = .allow ∧ prompt.request.kind = .askUser then answer.map fun text => (prompt.request.questions, text)
      else none
    message := message
    tap := tap
    source := source }
  ({ s.settle status id with resolutions := s.resolutions ++ [resolution] },
    if prompt.embedded then ⟨toast, none⟩
    else if decision = .deny then ⟨toast, some .skipped⟩
    else ⟨toast, some (.answered (if answer.getD [] = [] then toast.toList else answer.getD []))⟩)

/-- The operator may answer the prompt. -/
def gate (prompt : PendingPrompt) (tap : Tap) : Bool :=
  prompt.senderOpenId = "" || tap.openId = "" || tap.openId = prompt.senderOpenId

def select (id : Nat) (prompt : PendingPrompt) (tap : Tap) (option : Text) : PromptWorld × CardResponse :=
  if option = other then
    ({ s with prompts := s.prompts.set id { prompt with reveal := true } }, ⟨"填写你的想法后点提交", some .opened⟩)
  else
    ({ s with prompts := s.prompts.set id { prompt with selected := option, reveal := false, pick := some tap } },
      ⟨"已选,点「提交」确认", some .opened⟩)

/-- `handle`, for an action that is not of a menu -/
def handle (tap : Tap) : PromptWorld × CardResponse :=
  match s.getByMessage tap.messageId with
  | none => (s, ⟨"该请求已失效或已处理", none⟩)
  | some id =>
    match s.prompts[id]? with
    | none => (s, ⟨"该请求已失效或已处理", none⟩)
    | some prompt =>
      if gate prompt tap = false then (s, ⟨"仅本次对话的发起人可操作此卡片", none⟩)
      else if prompt.status ≠ .pending then (s, ⟨"已处理", none⟩)
      else
        match tap.act with
        | some .skip => s.finish id prompt tap tap .deny none "已跳过" .skipped "用户跳过了此问题"
        | some .allow => s.finish id prompt tap tap .allow none "已允许" .answered
        | some .deny => s.finish id prompt tap tap .deny none "已拒绝" .skipped "用户拒绝了本次操作"
        | some .submit =>
          let answer := answerFromOption prompt.request.questions prompt.selected
          if answer = [] then (s, ⟨"请先选择一个选项", none⟩)
          else s.finish id prompt tap (prompt.pick.getD tap) .allow (some answer) "已提交" .answered
        | none =>
          match tap.option with
          | some option => s.select id prompt tap option
          | none =>
            if tap.submit ∨ tap.formValue.isSome then
              let answer := answerFromForm prompt.request.questions (tap.formValue.getD {})
              if answer = [] then (s, ⟨"请先选择或填写后再提交", none⟩)
              else s.finish id prompt tap tap .allow (some answer) "已提交" .answered
            else (s, ⟨"已收到", none⟩)

end PromptWorld

structure InboundTurn where
  accountId : String
  senderOpenId : String
  deriving DecidableEq

/-- Where a turn is: before its streaming card has been sent, while the run streams, before the card of a
prompt has been sent, and after the run. -/
inductive TurnCall
  | opening (turn : InboundTurn)
  | streaming (turn : InboundTurn) (card : Option String) (issued : List Nat)
  | posting (turn : InboundTurn) (issued : List Nat) (request : PermissionRequest)
  | over
  deriving DecidableEq

inductive TurnInput
  /-- the card that was being sent, at this time -/
  | card (messageId : Option String) (now : Nat)
  | permissionRequest (request : PermissionRequest) (now : Nat)
  | permissionTimeout (requestId : String)
  /-- any other event of the run -/
  | content
  | finish

namespace TurnCall

def newMessage (s : PromptWorld) (messageId : String) : Bool := messageId ≠ "" && !s.messageIds.contains messageId

/-- A request id that no prompt has; the ids are random. -/
def newRequest (s : PromptWorld) (requestId : String) : Bool :=
  requestId ≠ "" && s.prompts.all (·.request.requestId ≠ requestId)

def prompt (turn : InboundTurn) (request : PermissionRequest) (messageId : String) (embedded : Bool) (now : Nat) :
    PendingPrompt where
  request := request
  accountId := turn.accountId
  senderOpenId := turn.senderOpenId
  messageId := messageId
  embedded := embedded
  registeredAt := now

def act (s : PromptWorld) (call : TurnCall) (input : TurnInput) : Option (PromptWorld × TurnCall) :=
  match call, input with
  | .opening turn, .card none _ => some (s, .streaming turn none [])
  | .opening turn, .card (some messageId) _ =>
    if newMessage s messageId then
      some ({ s with messageIds := messageId :: s.messageIds }, .streaming turn (some messageId) [])
    else none
  | .opening _, .finish => some (s, .over)
  -- `_embed_permission`, into the streaming card or with a card of its own
  | .streaming turn (some messageId) issued, .permissionRequest request now =>
    if newRequest s request.requestId then
      some (s.register promptTtl (prompt turn request messageId true now),
        .streaming turn (some messageId) (issued ++ [s.prompts.length]))
    else none
  | .streaming turn none issued, .permissionRequest request _ => some (s, .posting turn issued request)
  | .posting turn issued _, .card none _ => some (s, .streaming turn none issued)
  | .posting turn issued request, .card (some messageId) now =>
    if newMessage s messageId && newRequest s request.requestId then
      some ({ s.register promptTtl (prompt turn request messageId false now) with messageIds := messageId :: s.messageIds },
        .streaming turn none (issued ++ [s.prompts.length]))
    else none
  | .streaming turn card issued, .permissionTimeout requestId =>
    some (s.clearPermission requestId, .streaming turn card issued)
  | .streaming turn card issued, .content =>
    some ({ s with embeds := s.embeds.filter fun e => some e.1 ≠ card }, .streaming turn card issued)
  | .streaming _ _ issued, .finish | .posting _ issued _, .finish => some (s.expirePrompts issued, .over)
  | _, _ => none

end TurnCall

/-- Turns and taps in any order; the open id of a tap is that of the person, if it is there. -/
def promptProgram : Program PromptWorld TurnCall InboundTurn TurnInput Tap where
  enter := TurnCall.opening
  act := TurnCall.act
  outside := fun s tap => if tap.openId = "" ∨ tap.openId = tap.person then some (s.handle tap).1 else none

end PrivaCloud.ChannelConnector
