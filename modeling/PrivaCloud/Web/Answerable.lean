import PrivaCloud.Framework.Run
import PrivaCloud.Web.Decisions

/-!
# Every decision stays answerable

The slots and the queue hold the outstanding requests, and each answer carries the id of its card, as long as no
slot is taken twice, a POST has its response before its request is settled otherwise, the card of questions is that
of the slot, and no plan is answered here.
-/

namespace PrivaCloud.Web

open Framework

namespace DecisionWorld

variable (w : DecisionWorld)

def outstandingOf (kind : DecisionKind) : List PermissionRequest := w.outstanding.filter fun r => r.kind = kind

/-- The client shows each outstanding request once, in the order in which they came. -/
structure Faithful : Prop where
  once : (w.outstanding.map PermissionRequest.requestId).Nodup
  permissions : w.chat.pendingPermission.toList ++ w.chat.permissionQueue = w.outstandingOf .permission
  questions : (w.chat.pendingAskUser.map AskBlock.request).toList = w.outstandingOf .ask
  plans : w.chat.pendingPlanApproval.toList = w.outstandingOf .plan

def AnsweredForItself : Prop := ∀ answer ∈ w.sent, answer.requestId = some answer.card

def shown : List PermissionRequest :=
  w.chat.pendingPermission.toList ++ w.chat.permissionQueue ++ (w.chat.pendingAskUser.map AskBlock.request).toList ++
    w.chat.pendingPlanApproval.toList

end DecisionWorld

def PostKind.decision : PostKind → DecisionKind
  | .permission => .permission
  | .ask => .ask

def settles (w : DecisionWorld) : DecisionEvent → Option String
  | .resolved requestId => truthy requestId
  | .posted i true => (w.posts[i]?).map (·.requestId)
  | _ => none

def KeepsOthers (w : DecisionWorld) (event : DecisionEvent) : Prop :=
  ∀ w' ∈ w.step event, ∀ r ∈ w.shown, some r.requestId ≠ settles w event → r ∈ w'.shown

/-- A slot is free or already holds the request, a card of questions is answered while they are pending, a plan is
not answered here, and a POST that has succeeded finds its own request, or none. -/
def Undisturbed (w : DecisionWorld) : DecisionEvent → Prop
  | .request r =>
    (r.kind = .ask → ∀ a ∈ w.chat.pendingAskUser, a.request.requestId = r.requestId) ∧
      (r.kind = .plan → ∀ p ∈ w.chat.pendingPlanApproval, p.requestId = r.requestId)
  | .sendAnswer card _ channel => ∃ a ∈ w.chat.pendingAskUser, channel ≠ .offline → a.request.requestId = card
  | .decline card channel => ∀ a ∈ w.chat.pendingAskUser, channel ≠ .offline → a.request.requestId = card
  | .approvePlan _ _ => w.chat.pendingPlanApproval = none
  | .posted i true => ∀ post ∈ w.posts[i]?,
      match post.kind with
      | .permission => ∀ p ∈ w.chat.pendingPermission, p.requestId = post.requestId
      | .ask => ∀ a ∈ w.chat.pendingAskUser, a.request.requestId = post.requestId
  | .resolved _ | .respond _ _ _ | .posted _ false => True

instance (w : DecisionWorld) (event : DecisionEvent) : Decidable (Undisturbed w event) := by
  have hdec (post : AnswerPost) : Decidable (match post.kind with
      | .permission => ∀ p ∈ w.chat.pendingPermission, p.requestId = post.requestId
      | .ask => ∀ a ∈ w.chat.pendingAskUser, a.request.requestId = post.requestId) := by
    split <;> infer_instance
  unfold Undisturbed
  split <;> infer_instance

section Slots

variable {κ α : Type} [DecidableEq κ] {key : α → κ}

theorem receive_slot {slot : Option α} {x : α} (h : ∀ y ∈ slot, y = x) : receive key slot.toList x = (some x).toList := by
  cases slot with
  | none => rfl
  | some y =>
    obtain rfl := h y rfl
    exact if_pos (List.mem_singleton.mpr rfl)

theorem settle_slot (slot : Option α) (k : κ) : settle key slot.toList k = (slot.filter fun y => key y ≠ k).toList := by
  cases slot with
  | none => rfl
  | some y =>
    by_cases hk : key y = k
    · simp [settle, hk]
    · simp [settle, hk, Option.filter]

end Slots

namespace DecisionWorld

variable {w : DecisionWorld}

variable {r : PermissionRequest}

private theorem Faithful.mem_shown (h : w.Faithful) : r ∈ w.shown ↔ r ∈ w.outstanding := by
  have hkind (k : DecisionKind) : r ∈ w.outstandingOf k ↔ r ∈ w.outstanding ∧ r.kind = k := by
    simp [outstandingOf, List.mem_filter]
  unfold shown
  rw [h.permissions, h.questions, h.plans]
  simp only [List.mem_append, hkind]
  constructor
  · rintro ((⟨hr, -⟩ | ⟨hr, -⟩) | ⟨hr, -⟩)
    · exact hr
    · exact hr
    · exact hr
  · intro hr
    cases hk : r.kind with
    | permission => exact .inl (.inl ⟨hr, rfl⟩)
    | ask => exact .inl (.inr ⟨hr, rfl⟩)
    | plan => exact .inr ⟨hr, rfl⟩

private theorem Faithful.kind_plan (h : w.Faithful) {p : PermissionRequest} (hp : w.chat.pendingPlanApproval = some p) :
    p ∈ w.outstanding ∧ p.kind = .plan := by
  have hmem : p ∈ w.outstandingOf .plan := by
    rw [← h.plans, hp]
    exact List.mem_singleton.mpr rfl
  simpa [outstandingOf, List.mem_filter] using hmem

variable {a : AskBlock}

private theorem Faithful.kind_ask (h : w.Faithful) (ha : w.chat.pendingAskUser = some a) :
    a.request ∈ w.outstanding ∧ a.request.kind = .ask := by
  have hmem : a.request ∈ w.outstandingOf .ask := by
    rw [← h.questions, ha]
    exact List.mem_singleton.mpr rfl
  simpa [outstandingOf, List.mem_filter] using hmem

private theorem Faithful.nodup_of (h : w.Faithful) (kind : DecisionKind) :
    ((w.outstandingOf kind).map PermissionRequest.requestId).Nodup :=
  h.once.sublist (List.filter_sublist.map _)

private theorem onRequest_permissions (chat : DecisionSlots) (hr : r.kind = .permission)
    (hqueue : chat.pendingPermission = none → chat.permissionQueue = []) :
    (chat.onRequest r).pendingPermission.toList ++ (chat.onRequest r).permissionQueue =
      receive PermissionRequest.requestId (chat.pendingPermission.toList ++ chat.permissionQueue) r := by
  have hpending : (chat.pendingPermission.map (·.requestId) = some r.requestId ∨
      chat.permissionQueue.any (·.requestId = r.requestId)) ↔
        r.requestId ∈ (chat.pendingPermission.toList ++ chat.permissionQueue).map PermissionRequest.requestId := by
    cases chat.pendingPermission with
    | none => simp
    | some p => simp [eq_comm (a := p.requestId)]
  unfold DecisionSlots.onRequest receive
  rw [hr]
  dsimp only
  by_cases hin : chat.pendingPermission.map (·.requestId) = some r.requestId ∨
      chat.permissionQueue.any (·.requestId = r.requestId)
  · rw [if_pos hin, if_pos (hpending.mp hin)]
  · rw [if_neg hin, if_neg fun h => hin (hpending.mpr h)]
    cases hp : chat.pendingPermission with
    | none =>
      rw [hqueue hp]
      rfl
    | some p => simp

/-- The client is faithful, and an id names one request. -/
structure Sound (w : DecisionWorld) : Prop extends w.Faithful where
  first : w.chat.pendingPermission = none → w.chat.permissionQueue = []
  history : w.outstanding ⊆ w.received
  named : ∀ r ∈ w.received, ∀ r' ∈ w.received, r'.requestId = r.requestId → r' = r
  posts : ∀ post ∈ w.posts, ∃ r ∈ w.received, r.requestId = post.requestId ∧ r.kind = post.kind.decision
  answered : w.AnsweredForItself

variable {chat : DecisionSlots}

private theorem Sound.quiet (h : w.Sound) {posts : List AnswerPost} {sent : List SentAnswer}
    (hpermission : chat.pendingPermission = w.chat.pendingPermission)
    (hqueue : chat.permissionQueue = w.chat.permissionQueue)
    (hask : chat.pendingAskUser.map AskBlock.request = w.chat.pendingAskUser.map AskBlock.request)
    (hplan : chat.pendingPlanApproval = w.chat.pendingPlanApproval)
    (hposts : ∀ post ∈ posts, ∃ r ∈ w.received, r.requestId = post.requestId ∧ r.kind = post.kind.decision)
    (hsent : ∀ answer ∈ sent, answer.requestId = some answer.card) :
    ({ w with chat := chat, posts := posts, sent := sent } : DecisionWorld).Sound where
  once := h.once
  permissions := by
    show chat.pendingPermission.toList ++ chat.permissionQueue = _
    rw [hpermission, hqueue]
    exact h.permissions
  questions := by
    show (chat.pendingAskUser.map AskBlock.request).toList = _
    rw [hask]
    exact h.questions
  plans := by
    show chat.pendingPlanApproval.toList = _
    rw [hplan]
    exact h.plans
  first := by
    show chat.pendingPermission = none → chat.permissionQueue = []
    rw [hpermission, hqueue]
    exact h.first
  history := h.history
  named := h.named
  posts := hposts
  answered := hsent

private theorem Sound.taken (h : w.Sound)
    (hone : ∀ r' ∈ w.received, r'.requestId = r.requestId → r' = r)
    (hpermissions : chat.pendingPermission.toList ++ chat.permissionQueue =
      (receive PermissionRequest.requestId w.outstanding r).filter fun r => r.kind = .permission)
    (hquestions : (chat.pendingAskUser.map AskBlock.request).toList =
      (receive PermissionRequest.requestId w.outstanding r).filter fun r => r.kind = .ask)
    (hplans : chat.pendingPlanApproval.toList =
      (receive PermissionRequest.requestId w.outstanding r).filter fun r => r.kind = .plan)
    (hfirst : chat.pendingPermission = none → chat.permissionQueue = []) :
    ({ w with
      chat := chat
      received := r :: w.received
      outstanding := receive PermissionRequest.requestId w.outstanding r } : DecisionWorld).Sound where
  once := nodup_receive h.once r
  permissions := hpermissions
  questions := hquestions
  plans := hplans
  first := hfirst
  history := by
    intro y hy
    have hy : y ∈ receive PermissionRequest.requestId w.outstanding r := hy
    unfold receive at hy
    split at hy
    · exact List.mem_cons_of_mem _ (h.history hy)
    · rcases List.mem_append.mp hy with hy | hy
      · exact List.mem_cons_of_mem _ (h.history hy)
      · exact List.mem_cons.mpr (.inl (List.mem_singleton.mp hy))
  named y hy y' hy' hkey := by
    rcases List.mem_cons.mp hy with rfl | hin
    · rcases List.mem_cons.mp hy' with rfl | hin'
      · rfl
      · exact hone y' hin' hkey
    · rcases List.mem_cons.mp hy' with rfl | hin'
      · exact (hone y hin hkey.symm).symm
      · exact h.named y hin y' hin' hkey
  posts post hpost := by
    obtain ⟨y, hy, hrest⟩ := h.posts post hpost
    exact ⟨y, List.mem_cons_of_mem _ hy, hrest⟩
  answered := h.answered

private theorem Sound.request (h : w.Sound)
    (hone : ∀ r' ∈ w.received, r'.requestId = r.requestId → r' = r)
    (hask : r.kind = .ask → ∀ a ∈ w.chat.pendingAskUser, a.request.requestId = r.requestId)
    (hplan : r.kind = .plan → ∀ p ∈ w.chat.pendingPlanApproval, p.requestId = r.requestId) :
    ({ w with
      chat := w.chat.onRequest r
      received := r :: w.received
      outstanding := receive PermissionRequest.requestId w.outstanding r } : DecisionWorld).Sound := by
  have hsame (y : PermissionRequest) (hy : y ∈ w.outstanding) (hkey : y.requestId = r.requestId) : y = r :=
    hone y (h.history hy) hkey
  have hother {kind : DecisionKind} (hne : r.kind ≠ kind) :
      (receive PermissionRequest.requestId w.outstanding r).filter (fun r => decide (r.kind = kind)) =
        w.outstandingOf kind := filter_receive_neg (by simpa using hne)
  have hown {kind : DecisionKind} (heq : r.kind = kind) :
      (receive PermissionRequest.requestId w.outstanding r).filter (fun r => decide (r.kind = kind)) =
        receive PermissionRequest.requestId (w.outstandingOf kind) r := filter_receive_pos (by simpa using heq) hsame
  cases hkind : r.kind with
  | permission =>
    have hchat : (w.chat.onRequest r).pendingAskUser = w.chat.pendingAskUser ∧
        (w.chat.onRequest r).pendingPlanApproval = w.chat.pendingPlanApproval ∧
        ((w.chat.onRequest r).pendingPermission = none → (w.chat.onRequest r).permissionQueue = []) := by
      unfold DecisionSlots.onRequest
      rw [hkind]
      dsimp only
      split
      · exact ⟨rfl, rfl, h.first⟩
      · split
        · rename_i hsome
          refine ⟨rfl, rfl, ?_⟩
          intro hnone
          rw [hnone] at hsome
          cases hsome
        · exact ⟨rfl, rfl, nofun⟩
    obtain ⟨hasks, hplans, hfirst⟩ := hchat
    refine h.taken hone ?_ ?_ ?_ hfirst
    · rw [onRequest_permissions w.chat hkind h.first, h.permissions, hown hkind]
    · rw [hasks, h.questions, hother (by rw [hkind]; decide)]
    · rw [hplans, h.plans, hother (by rw [hkind]; decide)]
  | ask =>
    have hslot : ∀ y ∈ w.chat.pendingAskUser.map AskBlock.request, y = r := by
      intro y hy
      obtain ⟨a, ha, rfl⟩ := Option.map_eq_some_iff.mp hy
      exact hsame _ (h.kind_ask ha).1 (hask hkind a ha)
    have hchat : (w.chat.onRequest r).pendingPermission = w.chat.pendingPermission ∧
        (w.chat.onRequest r).permissionQueue = w.chat.permissionQueue ∧
        (w.chat.onRequest r).pendingPlanApproval = w.chat.pendingPlanApproval ∧
        (w.chat.onRequest r).pendingAskUser.map AskBlock.request = some r := by
      unfold DecisionSlots.onRequest
      rw [hkind]
      dsimp only
      split
      · rename_i hin
        obtain ⟨a, ha, -⟩ := Option.map_eq_some_iff.mp hin
        refine ⟨rfl, rfl, rfl, ?_⟩
        rw [ha, Option.map_some, hslot a.request (by rw [ha]; rfl)]
      · exact ⟨rfl, rfl, rfl, rfl⟩
    obtain ⟨hpermission, hqueue, hplans, hnow⟩ := hchat
    refine h.taken hone ?_ ?_ ?_ ?_
    · rw [hpermission, hqueue, h.permissions, hother (by rw [hkind]; decide)]
    · rw [hnow, hown hkind, ← h.questions, receive_slot hslot]
    · rw [hplans, h.plans, hother (by rw [hkind]; decide)]
    · rw [hpermission, hqueue]
      exact h.first
  | plan =>
    have hslot : ∀ y ∈ w.chat.pendingPlanApproval, y = r := fun y hy => hsame y (h.kind_plan hy).1 (hplan hkind y hy)
    have hchat : (w.chat.onRequest r).pendingPermission = w.chat.pendingPermission ∧
        (w.chat.onRequest r).permissionQueue = w.chat.permissionQueue ∧
        (w.chat.onRequest r).pendingAskUser = w.chat.pendingAskUser ∧
        (w.chat.onRequest r).pendingPlanApproval = some r := by
      unfold DecisionSlots.onRequest
      rw [hkind]
      dsimp only
      split
      · rename_i hin
        obtain ⟨p, hp, -⟩ := Option.map_eq_some_iff.mp hin
        refine ⟨rfl, rfl, rfl, ?_⟩
        rw [hp, hslot p hp]
      · exact ⟨rfl, rfl, rfl, rfl⟩
    obtain ⟨hpermission, hqueue, hasks, hnow⟩ := hchat
    refine h.taken hone ?_ ?_ ?_ ?_
    · rw [hpermission, hqueue, h.permissions, hother (by rw [hkind]; decide)]
    · rw [hasks, h.questions, hother (by rw [hkind]; decide)]
    · rw [hnow, hown hkind, ← h.plans, receive_slot hslot]
    · rw [hpermission, hqueue]
      exact h.first

private theorem Sound.settled (h : w.Sound) (requestId : String)
    (hpermissions : chat.pendingPermission.toList ++ chat.permissionQueue =
      settle PermissionRequest.requestId (w.outstandingOf .permission) requestId)
    (hquestions : (chat.pendingAskUser.map AskBlock.request).toList =
      settle PermissionRequest.requestId (w.outstandingOf .ask) requestId)
    (hplans : chat.pendingPlanApproval.toList = settle PermissionRequest.requestId (w.outstandingOf .plan) requestId)
    (hfirst : chat.pendingPermission = none → chat.permissionQueue = []) :
    ({ w with
      chat := chat
      outstanding := settle PermissionRequest.requestId w.outstanding requestId } : DecisionWorld).Sound where
  once := nodup_settle h.once requestId
  permissions := hpermissions.trans (filter_settle _ _ _).symm
  questions := hquestions.trans (filter_settle _ _ _).symm
  plans := hplans.trans (filter_settle _ _ _).symm
  first := hfirst
  history := fun _ hr => h.history (mem_settle.mp hr).1
  named := h.named
  posts := h.posts
  answered := h.answered

private theorem resolvePermission_toList (chat : DecisionSlots) :
    chat.resolvePermission.pendingPermission.toList ++ chat.resolvePermission.permissionQueue = chat.permissionQueue := by
  unfold DecisionSlots.resolvePermission
  cases chat.permissionQueue with
  | nil => rfl
  | cons p rest => rfl

private theorem resolvePermission_first (chat : DecisionSlots) :
    chat.resolvePermission.pendingPermission = none → chat.resolvePermission.permissionQueue = [] := by
  unfold DecisionSlots.resolvePermission
  cases chat.permissionQueue with
  | nil => exact fun _ => rfl
  | cons p rest => exact nofun

private theorem Sound.settle_first (h : w.Sound) {p : PermissionRequest} (hp : w.chat.pendingPermission = some p) :
    settle PermissionRequest.requestId (w.outstandingOf .permission) p.requestId = w.chat.permissionQueue := by
  have hlist := h.permissions
  have hnodup := h.nodup_of .permission
  rw [hp] at hlist
  rw [← hlist] at hnodup ⊢
  exact settle_head hnodup

private theorem Sound.resolved (h : w.Sound) (requestId : String) : ({ w with
      chat := (w.chat.clearSlots requestId).clearPermission requestId
      outstanding := settle PermissionRequest.requestId w.outstanding requestId } : DecisionWorld).Sound := by
  have hquestions : ((w.chat.pendingAskUser.filter (·.request.requestId ≠ requestId)).map AskBlock.request).toList =
      settle PermissionRequest.requestId (w.outstandingOf .ask) requestId := by
    rw [← h.questions, settle_slot, Option.filter_map]
    rfl
  have hplans : (w.chat.pendingPlanApproval.filter (·.requestId ≠ requestId)).toList =
      settle PermissionRequest.requestId (w.outstandingOf .plan) requestId := by
    rw [← h.plans, settle_slot]
  by_cases hfirst : w.chat.pendingPermission.map (·.requestId) = some requestId
  · have hchat : (w.chat.clearSlots requestId).clearPermission requestId =
        (w.chat.clearSlots requestId).resolvePermission := if_pos hfirst
    obtain ⟨p, hp, rfl⟩ := Option.map_eq_some_iff.mp hfirst
    rw [hchat]
    refine h.settled p.requestId ?_ hquestions hplans (resolvePermission_first _)
    rw [resolvePermission_toList, h.settle_first hp]
    rfl
  · have hchat : (w.chat.clearSlots requestId).clearPermission requestId = { w.chat.clearSlots requestId with
          permissionQueue := w.chat.permissionQueue.filter (·.requestId ≠ requestId) } := if_neg hfirst
    rw [hchat]
    refine h.settled requestId ?_ hquestions hplans ?_
    · show w.chat.pendingPermission.toList ++ w.chat.permissionQueue.filter (·.requestId ≠ requestId) = _
      rw [← h.permissions, settle, List.filter_append]
      congr 1
      cases hp : w.chat.pendingPermission with
      | none => rfl
      | some p =>
        have hne : p.requestId ≠ requestId := by
          intro hid
          exact hfirst (by rw [hp, Option.map_some, hid])
        simp [hne]
    · intro hnone
      show w.chat.permissionQueue.filter (·.requestId ≠ requestId) = []
      rw [h.first hnone]
      rfl

private theorem Sound.settle_other (h : w.Sound) (hr : r ∈ w.received) {kind : DecisionKind}
    (hkind : r.kind ≠ kind) :
    settle PermissionRequest.requestId (w.outstandingOf kind) r.requestId = w.outstandingOf kind := by
  apply settle_of_notMem
  intro hmem
  obtain ⟨y, hy, hkey⟩ := List.mem_map.mp hmem
  have hy : y ∈ w.outstanding ∧ y.kind = kind := by simpa [outstandingOf, List.mem_filter] using hy
  obtain rfl := h.named r hr y (h.history hy.1) hkey
  exact hkind hy.2

theorem Sound.onPosted (h : w.Sound) {post : AnswerPost} (hpost : ∃ r ∈ w.received, r.requestId = post.requestId ∧
      r.kind = post.kind.decision)
    (hown : match post.kind with
      | .permission => ∀ p ∈ w.chat.pendingPermission, p.requestId = post.requestId
      | .ask => ∀ a ∈ w.chat.pendingAskUser, a.request.requestId = post.requestId) : (w.onPosted post).Sound := by
  obtain ⟨r, hr, hid, hkind⟩ := hpost
  have hother {kind : DecisionKind} (hne : post.kind.decision ≠ kind) :
      settle PermissionRequest.requestId (w.outstandingOf kind) post.requestId = w.outstandingOf kind := by
    rw [← hid]
    exact h.settle_other hr (hkind ▸ hne)
  unfold DecisionWorld.onPosted
  cases hk : post.kind with
  | permission =>
    rw [hk] at hown hother
    refine h.settled post.requestId ?_ ?_ ?_ (resolvePermission_first w.chat)
    · rw [resolvePermission_toList]
      cases hp : w.chat.pendingPermission with
      | none =>
        rw [← h.permissions, hp, h.first hp]
        rfl
      | some p => rw [← hown p hp, h.settle_first hp]
    · rw [hother (by decide)]
      exact h.questions
    · rw [hother (by decide)]
      exact h.plans
  | ask =>
    rw [hk] at hown hother
    refine h.settled post.requestId ?_ ?_ ?_ h.first
    · rw [hother (by decide)]
      exact h.permissions
    · rw [← h.questions]
      cases ha : w.chat.pendingAskUser with
      | none => rfl
      | some a => simp [settle, hown a ha]
    · rw [hother (by decide)]
      exact h.plans

private theorem Sound.send (h : w.Sound) {card requestId : String} (decision : PermissionDecision) {kind : PostKind}
    {channel : AnswerChannel} (hcard : channel ≠ .offline → requestId = card)
    (hrequest : ∃ r ∈ w.received, r.requestId = requestId ∧ r.kind = kind.decision) :
    (w.send card requestId decision kind channel).Sound := by
  have hsent (hc : requestId = card) :
      ∀ answer ∈ w.sent ++ [⟨card, some requestId, decision⟩], answer.requestId = some answer.card := by
    intro answer hanswer
    rcases List.mem_append.mp hanswer with hanswer | hanswer
    · exact h.answered answer hanswer
    · rw [List.mem_singleton.mp hanswer, hc]
  cases channel with
  | socket => exact h.quiet rfl rfl rfl rfl h.posts (hsent (hcard nofun))
  | post =>
    refine h.quiet rfl rfl rfl rfl ?_ (hsent (hcard nofun))
    intro post hpost
    rcases List.mem_append.mp hpost with hpost | hpost
    · exact h.posts post hpost
    · rw [List.mem_singleton.mp hpost]
      exact hrequest
  | offline => exact h

private theorem Sound.setAskUser (h : w.Sound) (ha : w.chat.pendingAskUser.map AskBlock.request = some a.request)
    (submitted : Submitted) (channel : AnswerChannel) : (w.setAskUser a submitted channel).Sound := by
  unfold DecisionWorld.setAskUser
  split
  · exact h.quiet rfl rfl ha.symm rfl h.posts h.answered
  · exact h

private theorem Sound.answerPending (h : w.Sound) (ha : w.chat.pendingAskUser = some a) {card : String}
    {channel : AnswerChannel} (hcard : channel ≠ .offline → a.request.requestId = card) (decision : PermissionDecision)
    (submitted : Submitted) :
    ((w.send card a.request.requestId decision .ask channel).setAskUser a submitted channel).Sound := by
  obtain ⟨hmem, hkind⟩ := h.kind_ask ha
  have hrequest : ∃ r ∈ w.received, r.requestId = a.request.requestId ∧ r.kind = PostKind.ask.decision :=
    ⟨a.request, h.history hmem, rfl, hkind⟩
  have hsent := h.send decision hcard hrequest
  refine hsent.setAskUser ?_ submitted channel
  cases channel with
  | socket | post | offline => exact congrArg (Option.map AskBlock.request) ha

private theorem sound_init : ({} : DecisionWorld).Sound where
  once := List.nodup_nil
  permissions := rfl
  questions := rfl
  plans := rfl
  first _ := rfl
  history := List.Subset.refl _
  named _ h := by cases h
  posts _ h := by cases h
  answered _ h := by cases h

variable {event : DecisionEvent}

private theorem sound_step {w' : DecisionWorld} (h : w.Sound) (hu : Undisturbed w event)
    (hs : w.step event = some w') : w'.Sound := by
  cases event with
  | request r =>
    rw [step] at hs
    split at hs <;> cases hs
    rename_i hone
    exact h.request hone hu.1 hu.2
  | resolved requestId =>
    rw [step] at hs
    split at hs
    · cases hs
      exact h
    · cases hs
      exact h.resolved _
  | respond card decision channel =>
    rw [step] at hs
    split at hs <;> cases hs
    rename_i hcard
    exact h.send decision (fun _ => rfl) hcard
  | sendAnswer card text channel =>
    cases hs
    obtain ⟨a, ha, hcard⟩ := hu
    have ha : w.chat.pendingAskUser = some a := ha
    unfold DecisionWorld.sendAnswer
    rw [ha]
    exact h.answerPending ha hcard .allow (.answer text)
  | decline card channel =>
    cases hs
    unfold DecisionWorld.declineAskUser
    cases ha : w.chat.pendingAskUser with
    | none => exact h
    | some a => exact h.answerPending ha (hu a ha) .deny .declined
  | approvePlan channel newSession =>
    cases hs
    have hnone : w.chat.pendingPlanApproval = none := hu
    unfold DecisionWorld.approvePlan
    rw [hnone]
    exact h
  | posted i ok =>
    rw [step] at hs
    split at hs
    · rename_i post hpost
      have herased : ({ w with posts := w.posts.eraseIdx i } : DecisionWorld).Sound :=
        h.quiet rfl rfl rfl rfl (fun p hp => h.posts p (List.mem_of_mem_eraseIdx hp)) h.answered
      cases ok with
      | false =>
        cases hs
        exact herased
      | true =>
        cases hs
        exact herased.onPosted (h.posts post (List.mem_of_getElem? hpost)) (hu post hpost)
    · cases hs

/-- A step takes only what it settles out of the outstanding requests. -/
theorem outstanding_step {w' : DecisionWorld} (hs : w.step event = some w')
    (hr : r ∈ w.outstanding) (hne : some r.requestId ≠ settles w event) :
    r ∈ w'.outstanding := by
  have hsend (card requestId : String) (decision : PermissionDecision) (kind : PostKind) (channel : AnswerChannel) :
      (w.send card requestId decision kind channel).outstanding = w.outstanding := by
    cases channel with
    | socket | post | offline => rfl
  have hset (v : DecisionWorld) (a : AskBlock) (submitted : Submitted) (channel : AnswerChannel) :
      (v.setAskUser a submitted channel).outstanding = v.outstanding := by
    unfold DecisionWorld.setAskUser
    split
    · rfl
    · rfl
  cases event with
  | request r' =>
    rw [step] at hs
    split at hs <;> cases hs
    show r ∈ receive PermissionRequest.requestId w.outstanding r'
    unfold receive
    split
    · exact hr
    · exact List.mem_append_left _ hr
  | resolved requestId =>
    rw [step] at hs
    split at hs
    · cases hs
      exact hr
    · rename_i rid hrid
      cases hs
      refine mem_settle.mpr ⟨hr, ?_⟩
      rintro rfl
      exact hne hrid.symm
  | respond card decision channel =>
    rw [step] at hs
    split at hs <;> cases hs
    exact (hsend ..).symm ▸ hr
  | sendAnswer card text channel =>
    cases hs
    unfold DecisionWorld.sendAnswer
    cases w.chat.pendingAskUser with
    | none => exact hr
    | some a => exact ((hset ..).trans (hsend ..)).symm ▸ hr
  | decline card channel =>
    cases hs
    unfold DecisionWorld.declineAskUser
    cases w.chat.pendingAskUser with
    | none => exact hr
    | some a => exact ((hset ..).trans (hsend ..)).symm ▸ hr
  | approvePlan channel newSession =>
    cases hs
    unfold DecisionWorld.approvePlan
    cases w.chat.pendingPlanApproval with
    | none => exact hr
    | some p => exact (hsend p.requestId p.requestId .allow .permission channel).symm ▸ hr
  | posted i ok =>
    rw [step] at hs
    split at hs
    · rename_i post hpost
      cases ok with
      | false =>
        cases hs
        exact hr
      | true =>
        cases hs
        refine mem_settle.mpr ⟨hr, ?_⟩
        intro hid
        exact hne (by rw [settles, hpost, Option.map_some, hid])
    · cases hs

private theorem keepsOthers_of_sound (h : w.Sound) (hu : Undisturbed w event) : KeepsOthers w event := by
  intro w' hs r hr hne
  have h' := sound_step h hu hs
  exact h'.mem_shown.mpr (outstanding_step hs (h.mem_shown.mp hr) hne)

end DecisionWorld

/-- In an undisturbed run the client shows what is outstanding, and answers it for itself. -/
theorem answerable_of_undisturbed (events : List DecisionEvent)
    (h : RunMeets DecisionWorld.step Undisturbed ({} : DecisionWorld) events) :
    RunMeets DecisionWorld.step KeepsOthers {} events ∧
      ∀ w, run DecisionWorld.step {} events = some w → w.Faithful ∧ w.AnsweredForItself := by
  refine ⟨?_, ?_⟩
  · exact runMeets_of_invariant (fun _ _ _ => DecisionWorld.sound_step) (fun _ _ h hu => DecisionWorld.keepsOthers_of_sound h hu)
      DecisionWorld.sound_init h
  · intro w hw
    have hsound := run_invariant (fun _ _ _ => DecisionWorld.sound_step) DecisionWorld.sound_init h hw
    exact ⟨hsound.toFaithful, hsound.answered⟩

section Examples

def bashRequest (requestId : String) (h : requestId ≠ "" := by decide) : PermissionRequest :=
  ⟨requestId, h, none, "Bash", none⟩

def askRequest (requestId : String) (h : requestId ≠ "" := by decide) : PermissionRequest :=
  ⟨requestId, h, none, "AskUserQuestion", some ["Continue?"]⟩

def planRequest (requestId : String) (h : requestId ≠ "" := by decide) : PermissionRequest :=
  ⟨requestId, h, none, "ExitPlanMode", none⟩

/-- Two permissions, questions and a plan come, some of them twice, and are answered by the socket or by a POST, or
settled elsewhere. -/
theorem answerable_mixedRun : let events : List DecisionEvent :=
      [.request (bashRequest "p1"), .request (askRequest "q1"), .request (bashRequest "p2"), .request (bashRequest "p1"),
        .request (planRequest "plan"), .sendAnswer "q1" "yes" .socket, .request (askRequest "q1"),
        .respond "p1" .allow .post, .resolved (some "q1"), .posted 0 true, .resolved (some "p1"),
        .request (askRequest "q2"), .decline "q2" .post, .posted 0 true, .respond "p2" .deny .socket]
    (RunMeets DecisionWorld.step KeepsOthers {} events ∧
      ∀ w, run DecisionWorld.step {} events = some w → w.Faithful ∧ w.AnsweredForItself) ∧
      ∃ w, run DecisionWorld.step {} events = some w ∧ w.shown = [bashRequest "p2", planRequest "plan"] := by
  intro events
  refine ⟨answerable_of_undisturbed events (by decide), ?_⟩
  exact exists_run_of_decide _ _ _ (fun _ h => h) (by decide)

/-- Questions that come while others are pending take their place, and an answer from a card that is on its way out
goes to them; a POST that has a response after the broadcast takes the next permission out, or the next questions;
and the card of a plan is gone although nothing has taken its answer. -/
theorem decisions_not_answerable :
    (∃ w, run DecisionWorld.step {} [.request (askRequest "q1"), .request (askRequest "q2")] = some w ∧
        ¬ w.Faithful) ∧
      (∃ w, run DecisionWorld.step {} [.request (askRequest "q1"), .resolved (some "q1"), .request (askRequest "q2"),
        .sendAnswer "q1" "yes" .socket] = some w ∧ ¬ w.AnsweredForItself) ∧
      (∃ w, run DecisionWorld.step {} [.request (bashRequest "p1"), .request (bashRequest "p2"),
        .respond "p1" .allow .post, .resolved (some "p1")] = some w ∧ ¬ KeepsOthers w (.posted 0 true)) ∧
      (∃ w, run DecisionWorld.step {} [.request (askRequest "q1"), .sendAnswer "q1" "yes" .post, .resolved (some "q1"),
        .request (askRequest "q2")] = some w ∧ ¬ KeepsOthers w (.posted 0 true)) ∧
      ∃ w, run DecisionWorld.step {} [.request (planRequest "plan"), .approvePlan .offline false] = some w ∧
        ¬ w.Faithful := by
  have htakes (w : DecisionWorld) (h : ∃ w' ∈ w.step (.posted 0 true), ∃ r ∈ w.shown,
      some r.requestId ≠ settles w (.posted 0 true) ∧ r ∉ w'.shown) : ¬ KeepsOthers w (.posted 0 true) := by
    intro hkeeps
    obtain ⟨w', hs, r, hr, hne, hgone⟩ := h
    exact hgone (hkeeps w' hs r hr hne)
  refine ⟨?_, ?_, ?_, ?_, ?_⟩
  · refine exists_run_of_decide _ _ _ (p := fun w => (w.chat.pendingAskUser.map AskBlock.request).toList ≠ w.outstandingOf .ask)
      (fun w hw hfaithful => hw hfaithful.questions) (by decide)
  · refine exists_run_of_decide _ _ _ (p := fun w => ∃ answer ∈ w.sent, answer.requestId ≠ some answer.card) ?_
      (by decide)
    rintro w ⟨answer, hmem, hne⟩ hall
    exact hne (hall answer hmem)
  · exact exists_run_of_decide _ _ _ htakes (by decide)
  · exact exists_run_of_decide _ _ _ htakes (by decide)
  · refine exists_run_of_decide _ _ _ (p := fun w => w.chat.pendingPlanApproval.toList ≠ w.outstandingOf .plan)
      (fun w hw hfaithful => hw hfaithful.plans) (by decide)

end Examples

end PrivaCloud.Web
