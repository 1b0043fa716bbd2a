import PrivaCloud.ChannelConnector.Prompts

/-!
# Answers to prompts

The two indexes hold the pending prompts, and a prompt is resolved once, by its sender and as the sender
has chosen, as long as a card shows one pending prompt at a time and a tap is made on the prompt that is
registered under its message.
-/

namespace PrivaCloud.ChannelConnector

open Framework AskUser

abbrev PromptState : Type := Processes PromptWorld TurnCall

abbrev PromptEvent : Type := ProcessEvent InboundTurn TurnInput Tap

def SamePrompts (s : PromptWorld) : Prop :=
  ∀ id, (id ∈ s.byMessage.map Prod.snd ↔ s.pending id = true) ∧ (id ∈ s.byRequest.map Prod.snd ↔ s.pending id = true)

/-- The tap was made on this prompt, by the person to whom it is addressed. -/
def Tap.For (tap : Tap) (id : Nat) (prompt : PendingPrompt) : Prop :=
  tap.shown = id ∧ tap.person = prompt.senderOpenId

instance (tap : Tap) (id : Nat) (prompt : PendingPrompt) : Decidable (tap.For id prompt) :=
  inferInstanceAs (Decidable (_ ∧ _))

/-- The decision is that of the tap, and the answer is the choice of the tap or of the pick before it. -/
def Resolution.Decides (r : Resolution) (questions : List Question) : Prop :=
  match r.tap.act with
  | some .skip | some .deny => r.decision = .deny ∧ r.updatedInput = none
  | some .allow => r.decision = .allow ∧ r.updatedInput = none
  | some .submit => r.decision = .allow ∧ ∀ input ∈ r.updatedInput, ∃ option ∈ r.source.option,
      input = (questions, answerFromOption questions option)
  | none => r.decision = .allow ∧ ∀ input ∈ r.updatedInput,
      input = (questions, answerFromForm questions (r.tap.formValue.getD {}))

/-- A prompt is resolved under its own ids by taps that were made on it by its sender. -/
def Resolution.Right (s : PromptWorld) (r : Resolution) : Prop :=
  ∃ prompt ∈ s.prompts[r.prompt]?, r.tap.For r.prompt prompt ∧ r.source.For r.prompt prompt ∧
    r.accountId = prompt.accountId ∧ r.sessionId = prompt.request.sessionId ∧
    r.requestId = prompt.request.requestId ∧ r.Decides prompt.request.questions

/-- No prompt is resolved twice, and each one rightly. -/
structure ResolvedRightly (s : PromptWorld) : Prop where
  once : (s.resolutions.map Resolution.prompt).Nodup
  right : ∀ r ∈ s.resolutions, r.Right s

/-- A section takes no entry of a prompt away that is still pending. -/
def KeepsPending (s : PromptState) (event : PromptEvent) : Prop :=
  ∀ s' ∈ promptProgram.step s event, ∀ e, s'.shared.pending e.2 = true →
    (e ∈ s.shared.byMessage → e ∈ s'.shared.byMessage) ∧ (e ∈ s.shared.byRequest → e ∈ s'.shared.byRequest)

/-- A prompt is embedded in a card only when the card shows no pending prompt, and a tap that passes the gate
was made on the prompt that is registered under its message, by the one to whom it is addressed. -/
def Tidy (s : PromptState) : PromptEvent → Prop
  | .advance i (.permissionRequest _ now) =>
    match s.procs[i]? with
    | some (.streaming _ (some messageId) _) => (s.shared.sweep promptTtl now).getByMessage messageId = none
    | _ => True
  | .outside tap =>
    ∀ id ∈ s.shared.getByMessage tap.messageId, ∀ prompt ∈ s.shared.prompts[id]?,
      PromptWorld.gate prompt tap = true → tap.For id prompt
  | _ => True

instance (s : PromptState) (event : PromptEvent) : Decidable (Tidy s event) := by
  unfold Tidy
  split <;> first | infer_instance | (split <;> infer_instance)

variable {status : PromptStatus} {i id : Nat} {ids : List Nat} {prompt : PendingPrompt}

namespace PromptWorld

variable {s t u : PromptWorld}

private theorem getElem?_settleIf (s : PromptWorld) (gone : Nat → Bool) (status : PromptStatus) (id : Nat) :
    (s.settleIf gone status)[id]? = (s.prompts[id]?).map fun prompt =>
      if gone id ∧ prompt.status = .pending then { prompt with status := status } else prompt := by
  simp [settleIf, List.getElem?_mapIdx]

theorem pending_iff : s.pending id = true ↔ ∃ prompt, s.prompts[id]? = some prompt ∧ prompt.status = .pending := by
  simp [pending, Option.any_eq_true]

structure Discarded (s t : PromptWorld) (status : PromptStatus) (ids : List Nat) : Prop where
  prompts : ∀ id : Nat, t.prompts[id]? = (s.prompts[id]?).map fun prompt =>
    if id ∈ ids ∧ prompt.status = .pending then { prompt with status := status } else prompt
  message : ∀ e, e ∈ t.byMessage ↔ e ∈ s.byMessage ∧ ∀ id ∈ ids, ∀ prompt ∈ s.prompts[id]?, e.1 ≠ prompt.messageId
  request : ∀ e, e ∈ t.byRequest ↔ e ∈ s.byRequest ∧ ∀ id ∈ ids, ∀ prompt ∈ s.prompts[id]?,
    e.1 ≠ prompt.request.requestId
  resolutions : t.resolutions = s.resolutions
  messageIds : t.messageIds = s.messageIds

private theorem discarded_nil (status : PromptStatus) (embeds : List (String × Nat)) :
    Discarded s { s with embeds := embeds } status [] := by
  refine ⟨?_, ?_, ?_, rfl, rfl⟩
  · intro id
    simp
  · intro e
    simp
  · intro e
    simp

private theorem discarded_settle (status : PromptStatus) (id : Nat) : Discarded s (s.settle status id) status [id] := by
  unfold settle
  split
  · rename_i hnone
    refine ⟨?_, ?_, ?_, rfl, rfl⟩
    · intro k
      by_cases hk : k = id
      · rw [hk, hnone]
        rfl
      · simp [hk]
    · intro e
      simp [hnone]
    · intro e
      simp [hnone]
  · rename_i prompt hprompt
    refine ⟨?_, ?_, ?_, rfl, rfl⟩
    · intro k
      rw [getElem?_settleIf]
      simp
    · intro e
      simp [hprompt]
    · intro e
      simp [hprompt]

private theorem Discarded.kept (h : Discarded s t status ids)
    (hprompt : s.prompts[id]? = some prompt) :
    ∃ status', t.prompts[id]? = some { prompt with status := status' } := by
  rw [h.prompts, hprompt, Option.map_some]
  split
  · exact ⟨_, rfl⟩
  · exact ⟨prompt.status, rfl⟩

private theorem Discarded.was (h : Discarded s t status ids)
    (hprompt : t.prompts[id]? = some prompt) :
    ∃ status', s.prompts[id]? = some { prompt with status := status' } := by
  rw [h.prompts] at hprompt
  obtain ⟨was, hwas, rfl⟩ := Option.map_eq_some_iff.mp hprompt
  refine ⟨was.status, ?_⟩
  rw [hwas]
  split
  · rfl
  · rfl

private theorem Discarded.trans {ids' : List Nat} (hs : Discarded s t status ids)
    (ht : Discarded t u status ids') (hstatus : status ≠ .pending) : Discarded s u status (ids ++ ids') := by
  have hkeys (key : PendingPrompt → String) (hkey : ∀ prompt status', key { prompt with status := status' } = key prompt)
      (e : String × Nat) (id : Nat) :
      (∀ prompt ∈ t.prompts[id]?, e.1 ≠ key prompt) ↔ ∀ prompt ∈ s.prompts[id]?, e.1 ≠ key prompt := by
    constructor
    · intro h prompt hprompt
      obtain ⟨status', hkept⟩ := hs.kept hprompt
      rw [← hkey prompt status']
      exact h _ hkept
    · intro h prompt hprompt
      obtain ⟨status', hwas⟩ := hs.was hprompt
      rw [← hkey prompt status']
      exact h _ hwas
  refine ⟨?_, ?_, ?_, ht.resolutions.trans hs.resolutions, ht.messageIds.trans hs.messageIds⟩
  · intro id
    rw [ht.prompts, hs.prompts, Option.map_map]
    congr 1
    funext prompt
    by_cases hid : id ∈ ids
    · by_cases hpending : prompt.status = .pending
      · simp [hid, hpending, hstatus]
      · simp [hpending]
    · simp [hid]
  · intro e
    rw [ht.message, hs.message, and_assoc]
    simp only [List.mem_append, or_imp, forall_and]
    refine and_congr_right fun _ => and_congr_right fun _ => forall₂_congr fun id _ => ?_
    exact hkeys PendingPrompt.messageId (fun _ _ => rfl) e id
  · intro e
    rw [ht.request, hs.request, and_assoc]
    simp only [List.mem_append, or_imp, forall_and]
    refine and_congr_right fun _ => and_congr_right fun _ => forall₂_congr fun id _ => ?_
    exact hkeys (fun prompt => prompt.request.requestId) (fun _ _ => rfl) e id

private theorem discarded_expirePrompts (issued : List Nat) : Discarded s (s.expirePrompts issued) .expired issued := by
  induction issued generalizing s with
  | nil => exact discarded_nil _ s.embeds
  | cons id issued ih => exact (discarded_settle .expired id).trans (ih (s := s.settle .expired id)) (by decide)

end PromptWorld

/-- The pending prompts are under their keys, and nothing else is. -/
structure Indexed (s : PromptWorld) : Prop where
  pending : ∀ (id : Nat) prompt, s.prompts[id]? = some prompt → prompt.status = .pending →
    (prompt.messageId, id) ∈ s.byMessage ∧ (prompt.request.requestId, id) ∈ s.byRequest
  message : ∀ e ∈ s.byMessage, ∃ prompt, s.prompts[e.2]? = some prompt ∧ prompt.status = .pending ∧
    prompt.messageId = e.1
  request : ∀ e ∈ s.byRequest, ∃ prompt, s.prompts[e.2]? = some prompt ∧ prompt.status = .pending ∧
    prompt.request.requestId = e.1
  apart : ∀ e ∈ s.byMessage, ∀ e' ∈ s.byMessage, e.1 = e'.1 → e = e'
  single : ∀ e ∈ s.byRequest, ∀ e' ∈ s.byRequest, e.1 = e'.1 → e = e'

section Indexes

variable {s t : PromptWorld}

private theorem samePrompts_of_indexed (h : Indexed s) : SamePrompts s := by
  intro id
  constructor
  · rw [PromptWorld.pending_iff]
    constructor
    · intro hmem
      obtain ⟨e, he, rfl⟩ := List.mem_map.mp hmem
      obtain ⟨prompt, hprompt, hpending, -⟩ := h.message e he
      exact ⟨prompt, hprompt, hpending⟩
    · rintro ⟨prompt, hprompt, hpending⟩
      exact List.mem_map_of_mem (h.pending id prompt hprompt hpending).1
  · rw [PromptWorld.pending_iff]
    constructor
    · intro hmem
      obtain ⟨e, he, rfl⟩ := List.mem_map.mp hmem
      obtain ⟨prompt, hprompt, hpending, -⟩ := h.request e he
      exact ⟨prompt, hprompt, hpending⟩
    · rintro ⟨prompt, hprompt, hpending⟩
      exact List.mem_map_of_mem (h.pending id prompt hprompt hpending).2

/-- No pending prompt that stays shares a key with one that is discarded. -/
def Closed (s : PromptWorld) (ids : List Nat) : Prop :=
  ∀ (id : Nat) prompt, s.prompts[id]? = some prompt → prompt.status = .pending → ∀ d ∈ ids, ∀ gone ∈ s.prompts[d]?,
    prompt.messageId = gone.messageId ∨ prompt.request.requestId = gone.request.requestId → id ∈ ids

private theorem Indexed.discard (h : Indexed s)
    (hd : s.Discarded t status ids) (hstatus : status ≠ .pending) (hclosed : Closed s ids) : Indexed t := by
  -- a prompt that is pending afterwards is not discarded and was pending before
  have hback (id : Nat) (prompt : PendingPrompt) (hprompt : t.prompts[id]? = some prompt)
      (hpending : prompt.status = .pending) : s.prompts[id]? = some prompt ∧ id ∉ ids := by
    rw [hd.prompts] at hprompt
    obtain ⟨was, hwas, hsame⟩ := Option.map_eq_some_iff.mp hprompt
    split at hsame
    · rw [← hsame] at hpending
      exact absurd hpending hstatus
    · rename_i hstays
      rw [hsame] at hwas hstays
      exact ⟨hwas, fun hid => hstays ⟨hid, hpending⟩⟩
  have hfwd (id : Nat) (prompt : PendingPrompt) (hprompt : s.prompts[id]? = some prompt) (hid : id ∉ ids) :
      t.prompts[id]? = some prompt := by
    rw [hd.prompts, hprompt, Option.map_some, if_neg fun hboth => hid hboth.1]
  refine ⟨?_, ?_, ?_, ?_, ?_⟩
  · intro id prompt hprompt hpending
    obtain ⟨hwas, hid⟩ := hback id prompt hprompt hpending
    obtain ⟨hmessage, hrequest⟩ := h.pending id prompt hwas hpending
    constructor
    · refine (hd.message _).mpr ⟨hmessage, ?_⟩
      intro d hmem gone hgone hsame
      exact hid (hclosed id prompt hwas hpending d hmem gone hgone (.inl hsame))
    · refine (hd.request _).mpr ⟨hrequest, ?_⟩
      intro d hmem gone hgone hsame
      exact hid (hclosed id prompt hwas hpending d hmem gone hgone (.inr hsame))
  · intro e he
    obtain ⟨he, hkept⟩ := (hd.message e).mp he
    obtain ⟨prompt, hprompt, hpending, hkey⟩ := h.message e he
    refine ⟨prompt, hfwd e.2 prompt hprompt ?_, hpending, hkey⟩
    intro hid
    exact hkept e.2 hid prompt hprompt hkey.symm
  · intro e he
    obtain ⟨he, hkept⟩ := (hd.request e).mp he
    obtain ⟨prompt, hprompt, hpending, hkey⟩ := h.request e he
    refine ⟨prompt, hfwd e.2 prompt hprompt ?_, hpending, hkey⟩
    intro hid
    exact hkept e.2 hid prompt hprompt hkey.symm
  · intro e he e' he'
    exact h.apart e ((hd.message e).mp he).1 e' ((hd.message e').mp he').1
  · intro e he e' he'
    exact h.single e ((hd.request e).mp he).1 e' ((hd.request e').mp he').1

def staleIds (s : PromptWorld) (ttl now : Nat) : List Nat :=
  (List.range s.prompts.length).filter fun id => s.stale ttl now id && s.pending id

theorem mem_staleIds {ttl now : Nat} : id ∈ staleIds s ttl now ↔ s.stale ttl now id = true ∧ s.pending id = true := by
  unfold staleIds
  rw [List.mem_filter, List.mem_range, Bool.and_eq_true]
  refine and_iff_right_of_imp ?_
  rintro ⟨-, hpending⟩
  obtain ⟨prompt, hprompt, -⟩ := PromptWorld.pending_iff.mp hpending
  exact (List.getElem?_eq_some_iff.mp hprompt).1

private theorem mem_filter_stale {d : List (String × Nat)} {key : PendingPrompt → String} (ttl now : Nat)
    (hpending : ∀ (id : Nat) prompt, s.prompts[id]? = some prompt → prompt.status = .pending → (key prompt, id) ∈ d)
    (hentry : ∀ e ∈ d, ∃ prompt, s.prompts[e.2]? = some prompt ∧ prompt.status = .pending ∧ key prompt = e.1)
    (hapart : ∀ e ∈ d, ∀ e' ∈ d, e.1 = e'.1 → e = e') (e : String × Nat) :
    e ∈ d.filter (fun e => !s.stale ttl now e.2) ↔
      e ∈ d ∧ ∀ id ∈ staleIds s ttl now, ∀ prompt ∈ s.prompts[id]?, e.1 ≠ key prompt := by
  rw [List.mem_filter]
  refine and_congr_right fun he => ?_
  rw [Bool.not_eq_true', Bool.eq_false_iff]
  constructor
  · intro hfresh id hid gone hgone hkey
    obtain ⟨hstale, hgonePending⟩ := mem_staleIds.mp hid
    obtain ⟨gone', hgone', hstatus⟩ := PromptWorld.pending_iff.mp hgonePending
    obtain rfl := Option.some.inj (hgone.symm.trans hgone')
    have heq := hapart e he _ (hpending id gone hgone hstatus) hkey
    exact hfresh (congrArg Prod.snd heq ▸ hstale)
  · intro hkept hstale
    obtain ⟨prompt, hprompt, hstatus, hkey⟩ := hentry e he
    have hid := mem_staleIds.mpr ⟨hstale, PromptWorld.pending_iff.mpr ⟨prompt, hprompt, hstatus⟩⟩
    exact hkept e.2 hid prompt hprompt hkey.symm

private theorem discarded_sweep (h : Indexed s) (ttl now : Nat) :
    s.Discarded (s.sweep ttl now) .expired (staleIds s ttl now) := by
  have hsame := samePrompts_of_indexed h
  refine ⟨?_, ?_, ?_, rfl, rfl⟩
  · intro id
    have hlisted : (s.stale ttl now id && ((s.byMessage ++ s.byRequest).map Prod.snd).contains id) = true ↔
        id ∈ staleIds s ttl now := by
      rw [Bool.and_eq_true, List.contains_iff_mem, List.map_append, List.mem_append, (hsame id).1, (hsame id).2,
        or_self, mem_staleIds]
    unfold PromptWorld.sweep
    rw [PromptWorld.getElem?_settleIf]
    simp only [hlisted]
  · exact mem_filter_stale ttl now (fun id prompt hp hs => (h.pending id prompt hp hs).1) h.message h.apart
  · exact mem_filter_stale ttl now (fun id prompt hp hs => (h.pending id prompt hp hs).2) h.request h.single

private theorem notMem_keys {d : List (String × Nat)} {k : String} (h : getValue d k = none) : k ∉ d.map Prod.fst := by
  intro hmem
  obtain ⟨v, hv⟩ := getValue_isSome hmem
  rw [h] at hv
  cases hv

private theorem apart_append {d : List (String × Nat)} {k : String} {v : Nat} (hk : k ∉ d.map Prod.fst)
    (h : ∀ e ∈ d, ∀ e' ∈ d, e.1 = e'.1 → e = e') :
    ∀ e ∈ d ++ [(k, v)], ∀ e' ∈ d ++ [(k, v)], e.1 = e'.1 → e = e' := by
  intro e he e' he' hsame
  rcases List.mem_append.mp he with he | he
  · rcases List.mem_append.mp he' with he' | he'
    · exact h e he e' he' hsame
    · rw [List.mem_singleton.mp he'] at hsame
      exact absurd (List.mem_map.mpr ⟨e, he, hsame⟩) hk
  · rcases List.mem_append.mp he' with he' | he'
    · rw [List.mem_singleton.mp he] at hsame
      exact absurd (List.mem_map.mpr ⟨e', he', hsame.symm⟩) hk
    · rw [List.mem_singleton.mp he, List.mem_singleton.mp he']

private theorem Indexed.index (h : Indexed s) (hpending : prompt.status = .pending)
    (hmessage : prompt.messageId ∉ s.byMessage.map Prod.fst)
    (hrequest : prompt.request.requestId ∉ s.byRequest.map Prod.fst) : Indexed (s.index prompt) := by
  have hprompts (id : Nat) : (s.index prompt).prompts[id]? =
      if id < s.prompts.length then s.prompts[id]? else [prompt][id - s.prompts.length]? :=
    List.getElem?_append
  have hfwd (id : Nat) (old : PendingPrompt) (hold : s.prompts[id]? = some old) :
      (s.index prompt).prompts[id]? = some old := by
    rw [hprompts, if_pos (List.getElem?_eq_some_iff.mp hold).1]
    exact hold
  have hself : (s.index prompt).prompts[s.prompts.length]? = some prompt := by
    rw [hprompts, if_neg (Nat.lt_irrefl _), Nat.sub_self]
    rfl
  have hbyMessage : (s.index prompt).byMessage = s.byMessage ++ [(prompt.messageId, s.prompts.length)] :=
    assign_of_notMem hmessage _
  have hbyRequest : (s.index prompt).byRequest = s.byRequest ++ [(prompt.request.requestId, s.prompts.length)] :=
    assign_of_notMem hrequest _
  refine ⟨?_, ?_, ?_, ?_, ?_⟩
  · intro id found hfound hfoundPending
    rw [hbyMessage, hbyRequest]
    rw [hprompts] at hfound
    split at hfound
    · obtain ⟨hm, hr⟩ := h.pending id found hfound hfoundPending
      exact ⟨List.mem_append_left _ hm, List.mem_append_left _ hr⟩
    · have hid : id = s.prompts.length := by
        have := (List.getElem?_eq_some_iff.mp hfound).1
        simp at this
        omega
      rw [hid, Nat.sub_self] at hfound
      cases hfound
      rw [hid]
      exact ⟨List.mem_append_right _ List.mem_cons_self, List.mem_append_right _ List.mem_cons_self⟩
  · intro e he
    rw [hbyMessage] at he
    rcases List.mem_append.mp he with he | he
    · obtain ⟨old, hold, hrest⟩ := h.message e he
      exact ⟨old, hfwd e.2 old hold, hrest⟩
    · rw [List.mem_singleton.mp he]
      exact ⟨prompt, hself, hpending, rfl⟩
  · intro e he
    rw [hbyRequest] at he
    rcases List.mem_append.mp he with he | he
    · obtain ⟨old, hold, hrest⟩ := h.request e he
      exact ⟨old, hfwd e.2 old hold, hrest⟩
    · rw [List.mem_singleton.mp he]
      exact ⟨prompt, hself, hpending, rfl⟩
  · rw [hbyMessage]
    exact apart_append hmessage h.apart
  · rw [hbyRequest]
    exact apart_append hrequest h.single

end Indexes

namespace TurnCall

def card : TurnCall → Option String
  | .streaming _ card _ => card
  | _ => none

def issued : TurnCall → List Nat
  | .streaming _ _ issued | .posting _ issued _ => issued
  | _ => []

/-- The message is the streaming card of the turn or that of one of its prompts. -/
def Shows (s : PromptWorld) (call : TurnCall) (messageId : String) : Prop :=
  call.card = some messageId ∨ ∃ id ∈ call.issued, ∃ prompt ∈ s.prompts[id]?, prompt.messageId = messageId

end TurnCall

def PendingPrompt.Picked (id : Nat) (prompt : PendingPrompt) : Prop :=
  match prompt.pick with
  | none => prompt.selected = []
  | some tap => tap.For id prompt ∧ tap.option = some prompt.selected

structure Owned (s : PromptState) : Prop where
  owned : ∀ (id : Nat) prompt, s.shared.prompts[id]? = some prompt → prompt.status = .pending →
    ∃ (i : Nat) (call : TurnCall), s.procs[i]? = some call ∧ id ∈ call.issued
  apart : ∀ (i j : Nat) (call call' : TurnCall) messageId, s.procs[i]? = some call → s.procs[j]? = some call' →
    call.Shows s.shared messageId → call'.Shows s.shared messageId → i = j
  shown : ∀ call ∈ s.procs, ∀ messageId, call.Shows s.shared messageId → messageId ∈ s.shared.messageIds
  known : ∀ call ∈ s.procs, ∀ id ∈ call.issued, id < s.shared.prompts.length

structure PromptInv (s : PromptState) : Prop where
  indexed : Indexed s.shared
  unique : ∀ (id id' : Nat) prompt prompt', s.shared.prompts[id]? = some prompt → s.shared.prompts[id']? = some prompt' →
    prompt.request.requestId = prompt'.request.requestId → id = id'
  owned : Owned s
  picked : ∀ (id : Nat) prompt, s.shared.prompts[id]? = some prompt → prompt.Picked id
  settled : ∀ r ∈ s.shared.resolutions, s.shared.pending r.prompt = false
  resolved : ResolvedRightly s.shared

variable {call call' : TurnCall}

section Moves

variable {s : PromptState} {shared : PromptWorld} {procs : List TurnCall}

private theorem closed_issued (h : PromptInv s) (hcall : s.procs[i]? = some call) :
    Closed s.shared call.issued := by
  intro id prompt hprompt hpending d hd gone hgone hsame
  rcases hsame with hmessage | hrequest
  · obtain ⟨j, other, hother, hid⟩ := h.owned.owned id prompt hprompt hpending
    have hij := h.owned.apart i j call other prompt.messageId hcall hother (.inr ⟨d, hd, gone, hgone, hmessage.symm⟩)
      (.inr ⟨id, hid, prompt, hprompt, rfl⟩)
    rw [← hij, hcall] at hother
    cases hother
    exact hid
  · rw [h.unique id d prompt gone hprompt hgone hrequest]
    exact hd

private theorem closed_pending (h : PromptInv s) (hids : ∀ id ∈ ids, s.shared.pending id = true) :
    Closed s.shared ids := by
  intro k other hother hotherPending d hd gone hgone hsame
  obtain ⟨prompt, hprompt, hpending⟩ := PromptWorld.pending_iff.mp (hids d hd)
  obtain rfl := Option.some.inj (hgone.symm.trans hprompt)
  rcases hsame with hmessage | hrequest
  · have hentry := (h.indexed.pending k other hother hotherPending).1
    have hmine := (h.indexed.pending d gone hgone hpending).1
    have hsame : k = d := congrArg Prod.snd (h.indexed.apart _ hentry _ hmine hmessage)
    rw [hsame]
    exact hd
  · rw [h.unique k d other gone hother hgone hrequest]
    exact hd

private theorem Resolution.Right.discard {r : Resolution}
    (hd : s.shared.Discarded shared status ids) (h : r.Right s.shared) : r.Right shared := by
  obtain ⟨prompt, hprompt, hrest⟩ := h
  obtain ⟨status', hkept⟩ := hd.kept hprompt
  exact ⟨_, hkept, hrest⟩

private theorem PromptInv.discard (h : PromptInv s)
    (hd : s.shared.Discarded shared status ids) (hstatus : status ≠ .pending) (hclosed : Closed s.shared ids)
    (hback : ∀ (i : Nat) (call : TurnCall), procs[i]? = some call → ∃ was, s.procs[i]? = some was ∧
      (∀ messageId, call.card = some messageId → was.card = some messageId) ∧ ∀ id ∈ call.issued, id ∈ was.issued)
    (hkeeps : ∀ (i : Nat) (was : TurnCall), s.procs[i]? = some was → ∀ id ∈ was.issued, id ∈ ids ∨
      ∃ call, procs[i]? = some call ∧ id ∈ call.issued) : PromptInv ⟨shared, procs⟩ := by
  have hshows (i : Nat) (call : TurnCall) (hcall : procs[i]? = some call) :
      ∃ was, s.procs[i]? = some was ∧ ∀ messageId, call.Shows shared messageId → was.Shows s.shared messageId := by
    obtain ⟨was, hwas, hcard, hissued⟩ := hback i call hcall
    refine ⟨was, hwas, ?_⟩
    rintro messageId (hm | ⟨id, hid, prompt, hprompt, hm⟩)
    · exact .inl (hcard messageId hm)
    · obtain ⟨status', hprompt'⟩ := hd.was hprompt
      exact .inr ⟨id, hissued id hid, _, hprompt', hm⟩
  refine ⟨h.indexed.discard hd hstatus hclosed, ?_, ⟨?_, ?_, ?_, ?_⟩, ?_, ?_, ?_, ?_⟩
  · intro id id' prompt prompt' hprompt hprompt' hsame
    obtain ⟨_, hwas⟩ := hd.was hprompt
    obtain ⟨_, hwas'⟩ := hd.was hprompt'
    exact h.unique id id' _ _ hwas hwas' hsame
  · intro id prompt hprompt hpending
    dsimp only at hprompt
    rw [hd.prompts] at hprompt
    obtain ⟨was, hwas, hsame⟩ := Option.map_eq_some_iff.mp hprompt
    split at hsame
    · rw [← hsame] at hpending
      exact absurd hpending hstatus
    · rename_i hstays
      rw [hsame] at hwas hstays
      obtain ⟨i, call, hcall, hid⟩ := h.owned.owned id prompt hwas hpending
      rcases hkeeps i call hcall id hid with hgone | ⟨call', hcall', hid'⟩
      · exact absurd ⟨hgone, hpending⟩ hstays
      · exact ⟨i, call', hcall', hid'⟩
  · intro i j call call' messageId hcall hcall' hm hm'
    obtain ⟨was, hwas, hshow⟩ := hshows i call hcall
    obtain ⟨was', hwas', hshow'⟩ := hshows j call' hcall'
    exact h.owned.apart i j was was' messageId hwas hwas' (hshow messageId hm) (hshow' messageId hm')
  · intro call hmem messageId hm
    obtain ⟨i, hcall⟩ := List.mem_iff_getElem?.mp hmem
    obtain ⟨was, hwas, hshow⟩ := hshows i call hcall
    rw [hd.messageIds]
    exact h.owned.shown was (List.mem_of_getElem? hwas) messageId (hshow messageId hm)
  · intro call hmem id hid
    obtain ⟨i, hcall⟩ := List.mem_iff_getElem?.mp hmem
    obtain ⟨was, hwas, -, hissued⟩ := hback i call hcall
    have hlt := h.owned.known was (List.mem_of_getElem? hwas) id (hissued id hid)
    obtain ⟨status', hkept⟩ := hd.kept (List.getElem?_eq_getElem hlt)
    exact (List.getElem?_eq_some_iff.mp hkept).1
  · intro id prompt hprompt
    obtain ⟨status', hwas⟩ := hd.was hprompt
    have hpicked := h.picked id _ hwas
    exact hpicked
  · intro r hr
    rw [hd.resolutions] at hr
    have hno := h.settled r hr
    rw [Bool.eq_false_iff, Ne, PromptWorld.pending_iff] at hno ⊢
    rintro ⟨prompt, hprompt, hpending⟩
    dsimp only at hprompt
    rw [hd.prompts] at hprompt
    obtain ⟨was, hwas, hsame⟩ := Option.map_eq_some_iff.mp hprompt
    split at hsame
    · rw [← hsame] at hpending
      exact hstatus hpending
    · rw [hsame] at hwas
      exact hno ⟨prompt, hwas, hpending⟩
  · rw [hd.resolutions]
    exact h.resolved.once
  · intro r hr
    rw [hd.resolutions] at hr
    exact (h.resolved.right r hr).discard hd

private theorem PromptInv.discardPending (h : PromptInv s)
    (hd : s.shared.Discarded shared status ids) (hstatus : status ≠ .pending)
    (hids : ∀ id ∈ ids, s.shared.pending id = true) : PromptInv ⟨shared, s.procs⟩ :=
  h.discard hd hstatus (closed_pending h hids) (fun _ call hcall => ⟨call, hcall, fun _ hm => hm, fun _ hid => hid⟩)
    fun _ was hwas _ hid => .inr ⟨was, hwas, hid⟩

private theorem PromptInv.advance (h : PromptInv s) (hcall : s.procs[i]? = some call)
    (embeds : List (String × Nat)) (hcard : ∀ messageId, call'.card = some messageId → call.card = some messageId)
    (hissued : call'.issued = call.issued) : PromptInv ⟨{ s.shared with embeds := embeds }, s.procs.set i call'⟩ := by
  refine h.discard (PromptWorld.discarded_nil .expired embeds) (by decide) ?_ ?_ ?_
  · rintro id prompt - - d ⟨⟩
  · intro j other hother
    rcases Program.getElem?_set_cases hother with ⟨rfl, rfl⟩ | ⟨-, hother⟩
    · exact ⟨call, hcall, hcard, fun id hid => hissued ▸ hid⟩
    · exact ⟨other, hother, fun _ hm => hm, fun _ hid => hid⟩
  · intro j was hwas id hid
    right
    by_cases hj : j = i
    · rw [hj, hcall] at hwas
      cases hwas
      refine ⟨call', ?_, hissued ▸ hid⟩
      rw [hj]
      exact List.getElem?_set_self (List.getElem?_eq_some_iff.mp hcall).1
    · exact ⟨was, by rw [List.getElem?_set_ne (Ne.symm hj)]; exact hwas, hid⟩

/-- The run of a turn is over, and so are its prompts. -/
theorem PromptInv.finish (h : PromptInv s) (hcall : s.procs[i]? = some call) :
    PromptInv ⟨s.shared.expirePrompts call.issued, s.procs.set i .over⟩ := by
  refine h.discard (PromptWorld.discarded_expirePrompts call.issued) (by decide) (closed_issued h hcall) ?_ ?_
  · intro j other hother
    rcases Program.getElem?_set_cases hother with ⟨rfl, rfl⟩ | ⟨-, hother⟩
    · refine ⟨call, hcall, ?_, ?_⟩
      · rintro _ ⟨⟩
      · rintro _ ⟨⟩
    · exact ⟨other, hother, fun _ hm => hm, fun _ hid => hid⟩
  · intro j was hwas id hid
    by_cases hj : j = i
    · rw [hj, hcall] at hwas
      cases hwas
      exact .inl hid
    · exact .inr ⟨was, by rw [List.getElem?_set_ne (Ne.symm hj)]; exact hwas, hid⟩

private theorem PromptInv.card (h : PromptInv s) (hcall : s.procs[i]? = some call)
    {messageId : String} (hnew : messageId ∉ s.shared.messageIds) (hcard : call'.card = some messageId)
    (hissued : call'.issued = call.issued) :
    PromptInv ⟨{ s.shared with messageIds := messageId :: s.shared.messageIds }, s.procs.set i call'⟩ := by
  have hkeep (j : Nat) (other : TurnCall) (hother : (s.procs.set i call')[j]? = some other) (m : String)
      (hm : other.Shows s.shared m) : (j = i ∧ m = messageId) ∨
        ∃ was, s.procs[j]? = some was ∧ was.Shows s.shared m := by
    rcases Program.getElem?_set_cases hother with ⟨rfl, rfl⟩ | ⟨-, hother⟩
    · rcases hm with hm | ⟨id, hid, hrest⟩
      · rw [hcard] at hm
        exact .inl ⟨rfl, (Option.some.inj hm).symm⟩
      · exact .inr ⟨call, hcall, .inr ⟨id, hissued ▸ hid, hrest⟩⟩
    · exact .inr ⟨other, hother, hm⟩
  have hissues (j : Nat) (other : TurnCall) (hother : (s.procs.set i call')[j]? = some other) :
      ∃ was, s.procs[j]? = some was ∧ other.issued = was.issued := by
    rcases Program.getElem?_set_cases hother with ⟨rfl, rfl⟩ | ⟨-, hother⟩
    · exact ⟨call, hcall, hissued⟩
    · exact ⟨other, hother, rfl⟩
  refine ⟨⟨h.indexed.pending, h.indexed.message, h.indexed.request, h.indexed.apart, h.indexed.single⟩, h.unique,
    ⟨?_, ?_, ?_, ?_⟩, h.picked, h.settled, ⟨h.resolved.once, h.resolved.right⟩⟩
  · intro id prompt hprompt hpending
    obtain ⟨j, was, hwas, hid⟩ := h.owned.owned id prompt hprompt hpending
    by_cases hj : j = i
    · rw [hj, hcall] at hwas
      cases hwas
      refine ⟨i, call', ?_, hissued ▸ hid⟩
      exact List.getElem?_set_self (List.getElem?_eq_some_iff.mp hcall).1
    · exact ⟨j, was, by rw [List.getElem?_set_ne (Ne.symm hj)]; exact hwas, hid⟩
  · intro j k other other' m hother hother' hm hm'
    rcases hkeep j other hother m hm with ⟨hj, rfl⟩ | ⟨was, hwas, hshows⟩
    · rcases hkeep k other' hother' _ hm' with ⟨hk, -⟩ | ⟨was', hwas', hshows'⟩
      · rw [hj, hk]
      · exact absurd (h.owned.shown was' (List.mem_of_getElem? hwas') _ hshows') hnew
    · rcases hkeep k other' hother' m hm' with ⟨hk, rfl⟩ | ⟨was', hwas', hshows'⟩
      · exact absurd (h.owned.shown was (List.mem_of_getElem? hwas) _ hshows) hnew
      · exact h.owned.apart j k was was' m hwas hwas' hshows hshows'
  · intro other hmem m hm
    obtain ⟨j, hother⟩ := List.mem_iff_getElem?.mp hmem
    rcases hkeep j other hother m hm with ⟨-, rfl⟩ | ⟨was, hwas, hshows⟩
    · exact List.mem_cons_self
    · exact List.mem_cons_of_mem _ (h.owned.shown was (List.mem_of_getElem? hwas) m hshows)
  · intro other hmem id hid
    obtain ⟨j, hother⟩ := List.mem_iff_getElem?.mp hmem
    obtain ⟨was, hwas, hsame⟩ := hissues j other hother
    exact h.owned.known was (List.mem_of_getElem? hwas) id (hsame ▸ hid)

private theorem PromptInv.index (h : PromptInv s) (hcall : s.procs[i]? = some call)
    (hpending : prompt.status = .pending) (hpicked : prompt.Picked s.shared.prompts.length)
    (hmessage : prompt.messageId ∉ s.shared.byMessage.map Prod.fst)
    (hrequest : ∀ old ∈ s.shared.prompts, old.request.requestId ≠ prompt.request.requestId)
    (hown : call.card = some prompt.messageId ∨ prompt.messageId ∉ s.shared.messageIds)
    (hcard : ∀ messageId, call'.card = some messageId → call.card = some messageId)
    (hissued : call'.issued = call.issued ++ [s.shared.prompts.length]) {messageIds : List String}
    (hids : ∀ messageId ∈ s.shared.messageIds, messageId ∈ messageIds) (hin : prompt.messageId ∈ messageIds) :
    PromptInv ⟨{ s.shared.index prompt with messageIds := messageIds }, s.procs.set i call'⟩ := by
  have hlt := (List.getElem?_eq_some_iff.mp hcall).1
  have hself : (s.shared.prompts ++ [prompt])[s.shared.prompts.length]? = some prompt := by simp
  have hcases (id : Nat) (found : PendingPrompt) (hfound : (s.shared.prompts ++ [prompt])[id]? = some found) :
      s.shared.prompts[id]? = some found ∨ id = s.shared.prompts.length ∧ found = prompt := by
    rw [List.getElem?_append] at hfound
    split at hfound
    · exact .inl hfound
    · rename_i hge
      have hid : id = s.shared.prompts.length := by
        have := (List.getElem?_eq_some_iff.mp hfound).1
        simp at this
        omega
      rw [hid, Nat.sub_self] at hfound
      cases hfound
      exact .inr ⟨hid, rfl⟩
  have hold (id : Nat) (found : PendingPrompt) (hfound : s.shared.prompts[id]? = some found) :
      (s.shared.prompts ++ [prompt])[id]? = some found := by
    rw [List.getElem?_append, if_pos (List.getElem?_eq_some_iff.mp hfound).1]
    exact hfound
  -- what a turn shows it showed before, or it is the message of the new prompt
  have hshows (j : Nat) (other : TurnCall) (hother : (s.procs.set i call')[j]? = some other) (m : String)
      (hm : other.Shows { s.shared.index prompt with messageIds := messageIds } m) :
      (∃ was, s.procs[j]? = some was ∧ was.Shows s.shared m) ∨ j = i ∧ m = prompt.messageId := by
    rcases Program.getElem?_set_cases hother with ⟨rfl, rfl⟩ | ⟨-, hother⟩
    · rcases hm with hm | ⟨id, hid, found, hfound, hm⟩
      · exact .inl ⟨call, hcall, .inl (hcard m hm)⟩
      · rw [hissued] at hid
        rcases hcases id found hfound with hfound | ⟨-, rfl⟩
        · rcases List.mem_append.mp hid with hid | hid
          · exact .inl ⟨call, hcall, .inr ⟨id, hid, found, hfound, hm⟩⟩
          · rw [List.mem_singleton.mp hid] at hfound
            exact absurd (List.getElem?_eq_some_iff.mp hfound).1 (Nat.lt_irrefl _)
        · exact .inr ⟨rfl, hm.symm⟩
    · left
      refine ⟨other, hother, ?_⟩
      rcases hm with hm | ⟨id, hid, found, hfound, hm⟩
      · exact .inl hm
      · have hknown := h.owned.known other (List.mem_of_getElem? hother) id hid
        rcases hcases id found hfound with hfound | ⟨rfl, -⟩
        · exact .inr ⟨id, hid, found, hfound, hm⟩
        · exact absurd hknown (Nat.lt_irrefl _)
  have hfree (j : Nat) (was : TurnCall) (hwas : s.procs[j]? = some was) (hm : was.Shows s.shared prompt.messageId) :
      j = i := by
    rcases hown with hcardOwn | hnew
    · exact h.owned.apart j i was call _ hwas hcall hm (.inl hcardOwn)
    · exact absurd (h.owned.shown was (List.mem_of_getElem? hwas) _ hm) hnew
  have hnewRequest : prompt.request.requestId ∉ s.shared.byRequest.map Prod.fst := by
    intro hmem
    obtain ⟨e, he, hkey⟩ := List.mem_map.mp hmem
    obtain ⟨old, hfound, -, hsame⟩ := h.indexed.request e he
    exact hrequest old (List.mem_of_getElem? hfound) (hsame.trans hkey)
  have hindexed := h.indexed.index hpending hmessage hnewRequest
  refine ⟨⟨hindexed.pending, hindexed.message, hindexed.request, hindexed.apart, hindexed.single⟩, ?_, ⟨?_, ?_, ?_, ?_⟩,
    ?_, ?_, ⟨h.resolved.once, ?_⟩⟩
  · intro id id' found found' hfound hfound' hsame
    rcases hcases id found hfound with hwas | ⟨hid, hnew⟩
    · rcases hcases id' found' hfound' with hwas' | ⟨-, hnew'⟩
      · exact h.unique id id' found found' hwas hwas' hsame
      · rw [hnew'] at hsame
        exact absurd hsame (hrequest found (List.mem_of_getElem? hwas))
    · rcases hcases id' found' hfound' with hwas' | ⟨hid', -⟩
      · rw [hnew] at hsame
        exact absurd hsame.symm (hrequest found' (List.mem_of_getElem? hwas'))
      · rw [hid, hid']
  · intro id found hfound hfoundPending
    rcases hcases id found hfound with hfound | ⟨hid, -⟩
    · obtain ⟨j, was, hwas, hmem⟩ := h.owned.owned id found hfound hfoundPending
      by_cases hj : j = i
      · rw [hj, hcall] at hwas
        cases hwas
        exact ⟨i, call', List.getElem?_set_self hlt, hissued ▸ List.mem_append_left _ hmem⟩
      · exact ⟨j, was, by rw [List.getElem?_set_ne (Ne.symm hj)]; exact hwas, hmem⟩
    · refine ⟨i, call', List.getElem?_set_self hlt, ?_⟩
      rw [hissued, hid]
      exact List.mem_append_right _ List.mem_cons_self
  · intro j k other other' m hother hother' hm hm'
    rcases hshows j other hother m hm with ⟨was, hwas, hshow⟩ | ⟨hj, rfl⟩
    · rcases hshows k other' hother' m hm' with ⟨was', hwas', hshow'⟩ | ⟨hk, rfl⟩
      · exact h.owned.apart j k was was' m hwas hwas' hshow hshow'
      · rw [hk]
        exact hfree j was hwas hshow
    · rcases hshows k other' hother' _ hm' with ⟨was', hwas', hshow'⟩ | ⟨hk, -⟩
      · rw [hj]
        exact (hfree k was' hwas' hshow').symm
      · rw [hj, hk]
  · intro other hmem m hm
    obtain ⟨j, hother⟩ := List.mem_iff_getElem?.mp hmem
    rcases hshows j other hother m hm with ⟨was, hwas, hshow⟩ | ⟨-, rfl⟩
    · exact hids m (h.owned.shown was (List.mem_of_getElem? hwas) m hshow)
    · exact hin
  · intro other hmem id hid
    have hlength : (s.shared.index prompt).prompts.length = s.shared.prompts.length + 1 := by
      simp [PromptWorld.index]
    change id < (s.shared.index prompt).prompts.length
    rw [hlength]
    rcases Program.mem_set_cases hmem with rfl | hmem
    · rw [hissued] at hid
      rcases List.mem_append.mp hid with hid | hid
      · exact Nat.lt_succ_of_lt (h.owned.known call (List.mem_of_getElem? hcall) id hid)
      · rw [List.mem_singleton.mp hid]
        exact Nat.lt_succ_self _
    · exact Nat.lt_succ_of_lt (h.owned.known other hmem id hid)
  · intro id found hfound
    rcases hcases id found hfound with hfound | ⟨rfl, rfl⟩
    · exact h.picked id found hfound
    · exact hpicked
  · intro r hr
    obtain ⟨found, hfound, -⟩ := h.resolved.right r hr
    have hno := h.settled r hr
    rw [Bool.eq_false_iff, Ne, PromptWorld.pending_iff] at hno ⊢
    rintro ⟨found', hfound', hstatus⟩
    obtain rfl := Option.some.inj ((hold r.prompt found hfound).symm.trans hfound')
    exact hno ⟨found, hfound, hstatus⟩
  · intro r hr
    obtain ⟨found, hfound, hrest⟩ := h.resolved.right r hr
    exact ⟨found, hold r.prompt found hfound, hrest⟩

private theorem PromptInv.resolve (h : PromptInv s) (hstatus : status ≠ .pending) {r : Resolution}
    (hpending : s.shared.pending r.prompt = true) (hright : r.Right s.shared) :
    PromptInv ⟨{ s.shared.settle status r.prompt with resolutions := s.shared.resolutions ++ [r] }, s.procs⟩ := by
  have hd := PromptWorld.discarded_settle (s := s.shared) status r.prompt
  have hids : ∀ id ∈ [r.prompt], s.shared.pending id = true := by
    intro id hid
    rw [List.mem_singleton.mp hid]
    exact hpending
  have hdone := h.discardPending hd hstatus hids
  refine ⟨⟨hdone.indexed.pending, hdone.indexed.message, hdone.indexed.request, hdone.indexed.apart,
    hdone.indexed.single⟩, hdone.unique, ⟨hdone.owned.owned, hdone.owned.apart, hdone.owned.shown, hdone.owned.known⟩,
    hdone.picked, ?_, ⟨?_, ?_⟩⟩
  · intro r' hr'
    rcases List.mem_append.mp hr' with hr' | hr'
    · rw [← hd.resolutions] at hr'
      exact hdone.settled r' hr'
    · rw [List.mem_singleton.mp hr']
      change (s.shared.settle status r.prompt).pending r.prompt = false
      rw [Bool.eq_false_iff, Ne, PromptWorld.pending_iff]
      rintro ⟨prompt, hprompt, hstill⟩
      rw [hd.prompts] at hprompt
      obtain ⟨was, hwas, hsame⟩ := Option.map_eq_some_iff.mp hprompt
      split at hsame
      · rw [← hsame] at hstill
        exact hstatus hstill
      · rename_i hstays
        rw [← hsame] at hstill
        exact hstays ⟨List.mem_singleton_self _, hstill⟩
  · rw [List.map_append]
    refine List.nodup_append.mpr ⟨h.resolved.once, List.nodup_singleton _, ?_⟩
    intro id hid id' hid' heq
    obtain ⟨r', hr', rfl⟩ := List.mem_map.mp hid
    rw [List.map_singleton, List.mem_singleton] at hid'
    have hsettled := h.settled r' hr'
    rw [heq, hid', hpending] at hsettled
    cases hsettled
  · intro r' hr'
    rcases List.mem_append.mp hr' with hr' | hr'
    · have hkept : r'.Right (s.shared.settle status r.prompt) := (h.resolved.right r' hr').discard hd
      exact hkept
    · have hkept : r.Right (s.shared.settle status r.prompt) := hright.discard hd
      rw [List.mem_singleton.mp hr']
      exact hkept

private theorem PromptInv.edit (h : PromptInv s) {edited : PendingPrompt}
    (hprompt : s.shared.prompts[id]? = some prompt) (hrequest : edited.request = prompt.request)
    (haccount : edited.accountId = prompt.accountId) (hsender : edited.senderOpenId = prompt.senderOpenId)
    (hmessage : edited.messageId = prompt.messageId) (hstatus : edited.status = prompt.status)
    (hpicked : edited.Picked id) :
    PromptInv ⟨{ s.shared with prompts := s.shared.prompts.set id edited }, s.procs⟩ := by
  have hlt := (List.getElem?_eq_some_iff.mp hprompt).1
  have hback (k : Nat) (found : PendingPrompt) (hfound : (s.shared.prompts.set id edited)[k]? = some found) :
      ∃ was, s.shared.prompts[k]? = some was ∧ found.request = was.request ∧ found.messageId = was.messageId ∧
        found.status = was.status := by
    rcases Program.getElem?_set_cases hfound with ⟨rfl, rfl⟩ | ⟨-, hfound⟩
    · exact ⟨prompt, hprompt, hrequest, hmessage, hstatus⟩
    · exact ⟨found, hfound, rfl, rfl, rfl⟩
  have hfwd (k : Nat) (was : PendingPrompt) (hwas : s.shared.prompts[k]? = some was) :
      ∃ found, (s.shared.prompts.set id edited)[k]? = some found ∧ found.request = was.request ∧
        found.messageId = was.messageId ∧ found.status = was.status ∧ found.accountId = was.accountId ∧
        found.senderOpenId = was.senderOpenId := by
    by_cases hk : id = k
    · subst hk
      rw [hprompt] at hwas
      cases hwas
      exact ⟨edited, List.getElem?_set_self hlt, hrequest, hmessage, hstatus, haccount, hsender⟩
    · exact ⟨was, by rw [List.getElem?_set_ne hk]; exact hwas, rfl, rfl, rfl, rfl, rfl⟩
  have hshows (call : TurnCall) (m : String)
      (hm : call.Shows { s.shared with prompts := s.shared.prompts.set id edited } m) : call.Shows s.shared m := by
    rcases hm with hm | ⟨k, hk, found, hfound, hm⟩
    · exact .inl hm
    · obtain ⟨was, hwas, -, hsame, -⟩ := hback k found hfound
      exact .inr ⟨k, hk, was, hwas, hsame ▸ hm⟩
  refine ⟨⟨?_, ?_, ?_, h.indexed.apart, h.indexed.single⟩, ?_, ⟨?_, ?_, ?_, ?_⟩, ?_, ?_, ⟨h.resolved.once, ?_⟩⟩
  · intro k found hfound hpending
    obtain ⟨was, hwas, hreq, hmsg, hst⟩ := hback k found hfound
    rw [hreq, hmsg]
    exact h.indexed.pending k was hwas (hst ▸ hpending)
  · intro e he
    obtain ⟨was, hwas, hpending, hkey⟩ := h.indexed.message e he
    obtain ⟨found, hfound, -, hmsg, hst, -⟩ := hfwd e.2 was hwas
    exact ⟨found, hfound, hst.trans hpending, hmsg.trans hkey⟩
  · intro e he
    obtain ⟨was, hwas, hpending, hkey⟩ := h.indexed.request e he
    obtain ⟨found, hfound, hreq, -, hst, -⟩ := hfwd e.2 was hwas
    exact ⟨found, hfound, hst.trans hpending, (congrArg PermissionRequest.requestId hreq).trans hkey⟩
  · intro k k' found found' hfound hfound' hsame
    obtain ⟨was, hwas, hreq, -⟩ := hback k found hfound
    obtain ⟨was', hwas', hreq', -⟩ := hback k' found' hfound'
    rw [hreq, hreq'] at hsame
    exact h.unique k k' was was' hwas hwas' hsame
  · intro k found hfound hpending
    obtain ⟨was, hwas, -, -, hst⟩ := hback k found hfound
    exact h.owned.owned k was hwas (hst ▸ hpending)
  · intro i j call call' m hcall hcall' hm hm'
    exact h.owned.apart i j call call' m hcall hcall' (hshows call m hm) (hshows call' m hm')
  · intro call hmem m hm
    exact h.owned.shown call hmem m (hshows call m hm)
  · intro call hmem k hk
    rw [List.length_set]
    exact h.owned.known call hmem k hk
  · intro k found hfound
    rcases Program.getElem?_set_cases hfound with ⟨rfl, rfl⟩ | ⟨-, hfound⟩
    · exact hpicked
    · exact h.picked k found hfound
  · intro r hr
    have hno := h.settled r hr
    rw [Bool.eq_false_iff, Ne, PromptWorld.pending_iff] at hno ⊢
    rintro ⟨found, hfound, hpending⟩
    obtain ⟨was, hwas, -, -, hst⟩ := hback r.prompt found hfound
    exact hno ⟨was, hwas, hst ▸ hpending⟩
  · intro r hr
    obtain ⟨was, hwas, htap, hsource, hrest⟩ := h.resolved.right r hr
    obtain ⟨found, hfound, hreq, -, -, hacc, hsend⟩ := hfwd r.prompt was hwas
    refine ⟨found, hfound, ⟨htap.1, htap.2.trans hsend.symm⟩, ⟨hsource.1, hsource.2.trans hsend.symm⟩, ?_⟩
    rw [hacc, hreq]
    exact hrest

end Moves

section Handling

variable {s : PromptWorld} {tap : Tap}

private theorem answerFromOption_nil (questions : List Question) : answerFromOption questions [] = [] := by
  cases questions with
  | nil => rfl
  | cons q questions => rfl

/-- `_finish` resolves the prompt under its own ids. -/
theorem finish_eq (prompt : PendingPrompt) (tap source : Tap) (decision : Decision) (answer : Option Text)
    (toast : String) (status : PromptStatus) (message : String) :
    ∃ r : Resolution, (s.finish id prompt tap source decision answer toast status message).1 =
        { s.settle status r.prompt with resolutions := s.resolutions ++ [r] } ∧
      r.prompt = id ∧ r.tap = tap ∧ r.source = source ∧ r.accountId = prompt.accountId ∧
      r.sessionId = prompt.request.sessionId ∧ r.requestId = prompt.request.requestId ∧ r.decision = decision ∧
      ∀ input ∈ r.updatedInput, ∃ text ∈ answer, input = (prompt.request.questions, text) := by
  refine ⟨⟨id, prompt.accountId, prompt.request.sessionId, prompt.request.requestId, decision, _, message, tap, source⟩,
    rfl, rfl, rfl, rfl, rfl, rfl, rfl, rfl, ?_⟩
  intro input hinput
  dsimp only at hinput
  split at hinput
  · obtain ⟨text, htext, hin⟩ := Option.map_eq_some_iff.mp hinput
    exact ⟨text, htext, hin.symm⟩
  · cases hinput

/-- What a tap leaves: nothing new, a prompt that is resolved rightly or one that is edited. -/
inductive Handled (s : PromptWorld) : PromptWorld → Prop
  | same : Handled s s
  | resolved (status : PromptStatus) (r : Resolution) (hstatus : status ≠ .pending)
      (hpending : s.pending r.prompt = true) (hright : r.Right s) :
      Handled s { s.settle status r.prompt with resolutions := s.resolutions ++ [r] }
  | edited (id : Nat) (prompt : PendingPrompt) (reveal : Bool) (selected : Text) (pick : Option Tap)
      (hprompt : s.prompts[id]? = some prompt)
      (hpicked : PendingPrompt.Picked id { prompt with reveal := reveal, selected := selected, pick := pick }) :
      Handled s { s with prompts := s.prompts.set id { prompt with reveal := reveal, selected := selected, pick := pick } }

private theorem handled_finish (hprompt : s.prompts[id]? = some prompt)
    (hpending : prompt.status = .pending) {source : Tap} (htap : tap.For id prompt) (hsource : source.For id prompt)
    (hstatus : status ≠ .pending) {decision : Decision} {answer : Option Text}
    {toast message : String}
    (hdecides : ∀ r : Resolution, r.tap = tap → r.source = source → r.decision = decision →
      (∀ input ∈ r.updatedInput, ∃ text ∈ answer, input = (prompt.request.questions, text)) →
      r.Decides prompt.request.questions) :
    Handled s (s.finish id prompt tap source decision answer toast status message).1 := by
  obtain ⟨r, heq, hid, hrtap, hrsource, hacc, hsession, hrequest, hdecision, hinput⟩ :=
    @finish_eq id s prompt tap source decision answer toast status message
  rw [heq]
  refine .resolved status r hstatus ?_ ⟨prompt, ?_, ?_, ?_, hacc, hsession, hrequest, ?_⟩
  · rw [hid]
    exact PromptWorld.pending_iff.mpr ⟨prompt, hprompt, hpending⟩
  · rw [hid]
    exact hprompt
  · rw [hid, hrtap]
    exact htap
  · rw [hid, hrsource]
    exact hsource
  · exact hdecides r hrtap hrsource hdecision hinput

private theorem handled_handle (hpicked : ∀ (id : Nat) prompt, s.prompts[id]? = some prompt → prompt.Picked id)
    (hfor : ∀ id ∈ s.getByMessage tap.messageId, ∀ prompt ∈ s.prompts[id]?,
      PromptWorld.gate prompt tap = true → tap.For id prompt) : Handled s (s.handle tap).1 := by
  unfold PromptWorld.handle
  split
  · exact .same
  · rename_i id hid
    split
    · exact .same
    · rename_i prompt hprompt
      split
      · exact .same
      · rename_i hgate
        split
        · exact .same
        · rename_i hstatus
          have hpending := not_not.mp hstatus
          have htap := hfor id hid prompt hprompt (Bool.eq_true_of_not_eq_false hgate)
          -- without an answer there is no input
          have hnone (r : Resolution) (hinput : ∀ input ∈ r.updatedInput, ∃ text ∈ (none : Option Text),
              input = (prompt.request.questions, text)) : r.updatedInput = none := by
            rw [Option.eq_none_iff_forall_not_mem]
            intro input hmem
            obtain ⟨_, ⟨⟩, -⟩ := hinput input hmem
          split
          · rename_i hact
            refine handled_finish hprompt hpending htap htap (by decide) ?_
            intro r hrtap _ hdecision hinput
            simp only [Resolution.Decides, hrtap, hact]
            exact ⟨hdecision, hnone r hinput⟩
          · rename_i hact
            refine handled_finish hprompt hpending htap htap (by decide) ?_
            intro r hrtap _ hdecision hinput
            simp only [Resolution.Decides, hrtap, hact]
            exact ⟨hdecision, hnone r hinput⟩
          · rename_i hact
            refine handled_finish hprompt hpending htap htap (by decide) ?_
            intro r hrtap _ hdecision hinput
            simp only [Resolution.Decides, hrtap, hact]
            exact ⟨hdecision, hnone r hinput⟩
          · rename_i hact
            dsimp only
            split
            · exact .same
            · rename_i hanswer
              have hpick := hpicked id prompt hprompt
              unfold PendingPrompt.Picked at hpick
              split at hpick
              · rw [hpick, answerFromOption_nil] at hanswer
                exact absurd rfl hanswer
              · rename_i picked hpicked
                rw [hpicked, Option.getD_some]
                refine handled_finish hprompt hpending htap hpick.1 (by decide) ?_
                intro r hrtap hrsource hdecision hinput
                simp only [Resolution.Decides, hrtap, hact, hrsource]
                refine ⟨hdecision, ?_⟩
                intro input hmem
                obtain ⟨_, ⟨⟩, rfl⟩ := hinput input hmem
                exact ⟨prompt.selected, hpick.2, rfl⟩
          · rename_i hact
            split
            · unfold PromptWorld.select
              split
              · exact .edited id prompt true prompt.selected prompt.pick hprompt (hpicked id prompt hprompt)
              · rename_i option hoption _
                exact .edited id prompt false option (some tap) hprompt ⟨htap, hoption⟩
            · split
              · dsimp only
                split
                · exact .same
                · refine handled_finish hprompt hpending htap htap (by decide) ?_
                  intro r hrtap _ hdecision hinput
                  simp only [Resolution.Decides, hrtap, hact]
                  refine ⟨hdecision, ?_⟩
                  intro input hmem
                  obtain ⟨_, ⟨⟩, rfl⟩ := hinput input hmem
                  rfl
              · exact .same

end Handling

section Steps

variable {s s' : PromptState}

private theorem length_sweep (s : PromptWorld) (ttl now : Nat) : (s.sweep ttl now).prompts.length = s.prompts.length :=
  List.length_mapIdx

private theorem newMessage_iff {s : PromptWorld} {messageId : String} (h : TurnCall.newMessage s messageId = true) :
    messageId ∉ s.messageIds := by
  have hboth : messageId ≠ "" ∧ messageId ∉ s.messageIds := by simpa [TurnCall.newMessage] using h
  exact hboth.2

private theorem newRequest_iff {s : PromptWorld} {requestId : String} (h : TurnCall.newRequest s requestId = true) :
    ∀ old ∈ s.prompts, old.request.requestId ≠ requestId := by
  intro old hold
  rw [TurnCall.newRequest, Bool.and_eq_true, List.all_eq_true] at h
  exact of_decide_eq_true (h.2 old hold)

private theorem PromptInv.register (h : PromptInv s) (ttl : Nat)
    (hcall : s.procs[i]? = some call) (hpending : prompt.status = .pending)
    (hpick : prompt.pick = none) (hselected : prompt.selected = [])
    (hrequest : TurnCall.newRequest s.shared prompt.request.requestId = true)
    (hmessage : call.card = some prompt.messageId ∧
        (s.shared.sweep ttl prompt.registeredAt).getByMessage prompt.messageId = none ∨
      prompt.messageId ∉ s.shared.messageIds)
    (hcard : ∀ messageId, call'.card = some messageId → call.card = some messageId)
    (hissued : call'.issued = call.issued ++ [s.shared.prompts.length]) {messageIds : List String}
    (hids : ∀ messageId ∈ s.shared.messageIds, messageId ∈ messageIds) (hin : prompt.messageId ∈ messageIds) :
    PromptInv ⟨{ s.shared.register ttl prompt with messageIds := messageIds }, s.procs.set i call'⟩ := by
  have hd := discarded_sweep h.indexed ttl prompt.registeredAt
  have hswept := h.discardPending hd (by decide) fun id hid => (mem_staleIds.mp hid).2
  have hlength := length_sweep s.shared ttl prompt.registeredAt
  refine hswept.index hcall hpending ?_ ?_ ?_ ?_ hcard (hlength ▸ hissued) hids hin
  · simp only [PendingPrompt.Picked, hpick, hselected]
  · rcases hmessage with ⟨-, hfree⟩ | hnew
    · exact notMem_keys hfree
    · intro hmem
      obtain ⟨e, he, hkey⟩ := List.mem_map.mp hmem
      obtain ⟨found, hfound, hfoundPending, hsame⟩ := hswept.indexed.message e he
      obtain ⟨j, other, hother, hid⟩ := hswept.owned.owned e.2 found hfound hfoundPending
      have hshown := hswept.owned.shown other (List.mem_of_getElem? hother) found.messageId
        (.inr ⟨e.2, hid, found, hfound, rfl⟩)
      rw [hsame, hkey] at hshown
      exact hnew hshown
  · intro old hold
    obtain ⟨id, hid⟩ := List.mem_iff_getElem?.mp hold
    obtain ⟨status, hwas⟩ := hd.was hid
    have hne := newRequest_iff hrequest _ (List.mem_of_getElem? hwas)
    exact hne
  · exact hmessage.imp_left And.left

private theorem PromptInv.clearPermission (h : PromptInv s) (requestId : String) :
    PromptInv ⟨s.shared.clearPermission requestId, s.procs⟩ := by
  unfold PromptWorld.clearPermission
  split
  · exact h
  · rename_i id hid
    refine h.discardPending (PromptWorld.discarded_settle .timeout id) (by decide) ?_
    intro k hk
    rw [List.mem_singleton.mp hk]
    exact (Option.filter_eq_some_iff.mp hid).2

private theorem procs_set_self (hcall : s.procs[i]? = some call) : s.procs.set i call = s.procs := by
  obtain ⟨hlt, rfl⟩ := List.getElem?_eq_some_iff.mp hcall
  exact List.set_getElem_self hlt

private theorem PromptInv.act (h : PromptInv s) {input : TurnInput} {next : PromptWorld × TurnCall}
    (hcall : s.procs[i]? = some call) (htidy : Tidy s (.advance i input))
    (hact : TurnCall.act s.shared call input = some next) : PromptInv ⟨next.1, s.procs.set i next.2⟩ := by
  unfold TurnCall.act at hact
  split at hact
  · cases hact
    refine h.advance hcall s.shared.embeds ?_ rfl
    rintro _ ⟨⟩
  · split at hact <;> cases hact
    rename_i hnew
    exact h.card hcall (newMessage_iff hnew) rfl rfl
  · cases hact
    refine h.advance hcall s.shared.embeds ?_ rfl
    rintro _ ⟨⟩
  · rename_i turn messageId issued request now
    split at hact <;> cases hact
    rename_i hnew
    have hfree : (s.shared.sweep promptTtl now).getByMessage messageId = none := by
      simp only [Tidy, hcall] at htidy
      exact htidy
    have hshown := h.owned.shown _ (List.mem_of_getElem? hcall) messageId (.inl rfl)
    exact @PromptInv.register _ (TurnCall.prompt turn request messageId true now) _
      (.streaming turn (some messageId) (issued ++ [s.shared.prompts.length])) _ h promptTtl hcall rfl rfl rfl hnew
      (.inl ⟨rfl, hfree⟩) (fun _ hm => hm) rfl _ (fun _ hm => hm) hshown
  · cases hact
    refine h.advance hcall s.shared.embeds ?_ rfl
    rintro _ ⟨⟩
  · cases hact
    refine h.advance hcall s.shared.embeds ?_ rfl
    rintro _ ⟨⟩
  · rename_i turn issued request messageId now
    split at hact
    · rename_i hnew
      obtain ⟨hnewMessage, hnewRequest⟩ := Bool.and_eq_true_iff.mp hnew
      cases hact
      refine @PromptInv.register _ (TurnCall.prompt turn request messageId false now) _ _ _ h promptTtl hcall rfl rfl rfl
        hnewRequest (.inr (newMessage_iff hnewMessage)) ?_ rfl _ ?_ List.mem_cons_self
      · rintro _ ⟨⟩
      · intro m hm
        exact List.mem_cons_of_mem _ hm
    · cases hact
  · cases hact
    rw [procs_set_self hcall]
    exact h.clearPermission _
  · cases hact
    exact h.advance hcall _ (fun _ hm => hm) rfl
  · cases hact
    exact h.finish hcall
  · cases hact
    exact h.finish hcall
  · cases hact

private theorem PromptInv.handle (h : PromptInv s) {tap : Tap} (htidy : Tidy s (.outside tap)) :
    PromptInv ⟨(s.shared.handle tap).1, s.procs⟩ := by
  have hhandled := handled_handle h.picked htidy
  generalize (s.shared.handle tap).1 = shared at hhandled ⊢
  cases hhandled with
  | same => exact h
  | resolved status r hstatus hpending hright => exact h.resolve hstatus hpending hright
  | edited id prompt reveal selected pick hprompt hpicked => exact h.edit hprompt rfl rfl rfl rfl rfl hpicked

theorem PromptInv.spawn (h : PromptInv s) (turn : InboundTurn) : PromptInv ⟨s.shared, s.procs ++ [.opening turn]⟩ := by
  have hcases (j : Nat) (call : TurnCall) (hcall : (s.procs ++ [.opening turn])[j]? = some call) :
      s.procs[j]? = some call ∨ call = .opening turn := by
    rw [List.getElem?_append] at hcall
    split at hcall
    · exact .inl hcall
    · exact .inr (List.mem_singleton.mp (List.mem_of_getElem? hcall))
  have hnothing (m : String) : ¬ (TurnCall.opening turn).Shows s.shared m := by
    rintro (⟨⟨⟩⟩ | ⟨id, ⟨⟩, -⟩)
  refine ⟨h.indexed, h.unique, ⟨?_, ?_, ?_, ?_⟩, h.picked, h.settled, h.resolved⟩
  · intro id prompt hprompt hpending
    obtain ⟨j, call, hcall, hid⟩ := h.owned.owned id prompt hprompt hpending
    refine ⟨j, call, ?_, hid⟩
    rw [List.getElem?_append, if_pos (List.getElem?_eq_some_iff.mp hcall).1]
    exact hcall
  · intro j k call call' m hcall hcall' hm hm'
    rcases hcases j call hcall with hwas | rfl
    · rcases hcases k call' hcall' with hwas' | rfl
      · exact h.owned.apart j k call call' m hwas hwas' hm hm'
      · exact absurd hm' (hnothing m)
    · exact absurd hm (hnothing m)
  · intro call hmem m hm
    rcases List.mem_append.mp hmem with hmem | hmem
    · exact h.owned.shown call hmem m hm
    · rw [List.mem_singleton.mp hmem] at hm
      exact absurd hm (hnothing m)
  · intro call hmem id hid
    rcases List.mem_append.mp hmem with hmem | hmem
    · exact h.owned.known call hmem id hid
    · rw [List.mem_singleton.mp hmem] at hid
      cases hid

private theorem prompt_step (h : PromptInv s) {event : PromptEvent} (htidy : Tidy s event)
    (hs : promptProgram.step s event = some s') : PromptInv s' := by
  cases event with
  | spawn turn =>
    cases hs
    exact h.spawn turn
  | advance i input =>
    obtain ⟨call, next, hcall, hact, rfl⟩ := Program.advance_eq_some hs
    exact h.act hcall htidy hact
  | outside tap =>
    obtain ⟨shared, ho, rfl⟩ := Program.outside_eq_some hs
    simp only [promptProgram] at ho
    split at ho <;> cases ho
    exact h.handle htidy

def Kept (s t : PromptWorld) : Prop :=
  ∀ (id : Nat) prompt, s.prompts[id]? = some prompt → ∃ prompt', t.prompts[id]? = some prompt' ∧
    prompt'.messageId = prompt.messageId ∧ prompt'.request = prompt.request

private theorem kept_of_discarded {s t : PromptWorld}
    (hd : s.Discarded t status ids) : Kept s t := by
  intro id prompt hprompt
  obtain ⟨status', hkept⟩ := hd.kept hprompt
  exact ⟨_, hkept, rfl, rfl⟩

theorem kept_register (s : PromptWorld) (ttl : Nat) (prompt : PendingPrompt) : Kept s (s.register ttl prompt) := by
  intro id old hold
  have hlt : id < (s.sweep ttl prompt.registeredAt).prompts.length := by
    rw [length_sweep]
    exact (List.getElem?_eq_some_iff.mp hold).1
  have hswept : (s.sweep ttl prompt.registeredAt).prompts[id]? = _ :=
    PromptWorld.getElem?_settleIf s _ .expired id
  rw [hold, Option.map_some] at hswept
  refine ⟨_, (List.getElem?_append_left hlt).trans hswept, ?_⟩
  split
  · exact ⟨rfl, rfl⟩
  · exact ⟨rfl, rfl⟩

private theorem kept_clearPermission (s : PromptWorld) (requestId : String) : Kept s (s.clearPermission requestId) := by
  unfold PromptWorld.clearPermission
  split
  · exact fun _ prompt hprompt => ⟨prompt, hprompt, rfl, rfl⟩
  · exact kept_of_discarded (PromptWorld.discarded_settle _ _)

private theorem kept_act {s : PromptWorld} {input : TurnInput} {next : PromptWorld × TurnCall}
    (hact : TurnCall.act s call input = some next) : Kept s next.1 := by
  have hrefl : Kept s s := fun _ prompt hprompt => ⟨prompt, hprompt, rfl, rfl⟩
  unfold TurnCall.act at hact
  split at hact
  · cases hact
    exact hrefl
  · split at hact <;> cases hact
    exact hrefl
  · cases hact
    exact hrefl
  · split at hact <;> cases hact
    exact kept_register s _ _
  · cases hact
    exact hrefl
  · cases hact
    exact hrefl
  · split at hact <;> cases hact
    exact kept_register s _ _
  · cases hact
    exact kept_clearPermission s _
  · cases hact
    exact hrefl
  · cases hact
    exact kept_of_discarded (PromptWorld.discarded_expirePrompts _)
  · cases hact
    exact kept_of_discarded (PromptWorld.discarded_expirePrompts _)
  · cases hact

private theorem Handled.kept {s t : PromptWorld} (h : Handled s t) : Kept s t := by
  cases h with
  | same => exact fun _ prompt hprompt => ⟨prompt, hprompt, rfl, rfl⟩
  | resolved status r hstatus hpending hright =>
    have hkept := kept_of_discarded (PromptWorld.discarded_settle (s := s) status r.prompt)
    exact hkept
  | edited id prompt reveal selected pick hprompt hpicked =>
    intro k was hwas
    by_cases hk : id = k
    · subst hk
      obtain rfl := Option.some.inj (hprompt.symm.trans hwas)
      exact ⟨_, List.getElem?_set_self (List.getElem?_eq_some_iff.mp hprompt).1, rfl, rfl⟩
    · exact ⟨was, (List.getElem?_set_ne hk).trans hwas, rfl, rfl⟩

theorem keepsPending_of_inv (h : PromptInv s) {event : PromptEvent} (htidy : Tidy s event) : KeepsPending s event := by
  intro s' hs e hpending
  have hkept : Kept s.shared s'.shared := by
    cases event with
    | spawn turn =>
      cases hs
      exact fun _ prompt hprompt => ⟨prompt, hprompt, rfl, rfl⟩
    | advance i input =>
      obtain ⟨call, next, -, hact, rfl⟩ := Program.advance_eq_some hs
      exact kept_act hact
    | outside tap =>
      obtain ⟨shared, ho, rfl⟩ := Program.outside_eq_some hs
      simp only [promptProgram] at ho
      split at ho <;> cases ho
      exact (handled_handle h.picked htidy).kept
  have hindexed := (prompt_step h htidy hs).indexed
  obtain ⟨found, hfound, hfoundPending⟩ := PromptWorld.pending_iff.mp hpending
  obtain ⟨hmessage, hrequest⟩ := hindexed.pending e.2 found hfound hfoundPending
  constructor
  · intro he
    obtain ⟨prompt, hprompt, -, hkey⟩ := h.indexed.message e he
    obtain ⟨found', hfound', hsame, -⟩ := hkept e.2 prompt hprompt
    obtain rfl := Option.some.inj (hfound.symm.trans hfound')
    rw [hsame, hkey] at hmessage
    exact hmessage
  · intro he
    obtain ⟨prompt, hprompt, -, hkey⟩ := h.indexed.request e he
    obtain ⟨found', hfound', -, hsame⟩ := hkept e.2 prompt hprompt
    obtain rfl := Option.some.inj (hfound.symm.trans hfound')
    rw [hsame, hkey] at hrequest
    exact hrequest

end Steps

def idlePrompts : PromptState := ⟨{}, []⟩

private theorem promptInv_idle : PromptInv idlePrompts := by
  refine ⟨⟨?_, ?_, ?_, ?_, ?_⟩, ?_, ⟨?_, ?_, ?_, ?_⟩, ?_, ?_, ⟨List.nodup_nil, ?_⟩⟩
  · rintro id prompt ⟨⟩
  · rintro e ⟨⟩
  · rintro e ⟨⟩
  · rintro e ⟨⟩
  · rintro e ⟨⟩
  · rintro id id' prompt prompt' ⟨⟩
  · rintro id prompt ⟨⟩
  · rintro i j call call' messageId ⟨⟩
  · rintro call ⟨⟩
  · rintro call ⟨⟩
  · rintro id prompt ⟨⟩
  · rintro r ⟨⟩
  · rintro r ⟨⟩

/-- Along every tidy run the indexes hold the pending prompts, a prompt is resolved once and rightly, and none
that is still pending loses its entries. -/
theorem resolvedRightly_of_tidy {events : List PromptEvent} {s' : PromptState}
    (htidy : RunMeets promptProgram.step Tidy idlePrompts events)
    (hrun : run promptProgram.step idlePrompts events = some s') :
    SamePrompts s'.shared ∧ ResolvedRightly s'.shared ∧ RunMeets promptProgram.step KeepsPending idlePrompts events := by
  have hstep (s : PromptState) (event : PromptEvent) (next : PromptState) (hi : PromptInv s) (hc : Tidy s event)
      (hs : promptProgram.step s event = some next) : PromptInv next := prompt_step hi hc hs
  have hinv := run_invariant hstep promptInv_idle htidy hrun
  exact ⟨samePrompts_of_indexed hinv.indexed, hinv.resolved,
    runMeets_of_invariant hstep (fun _ _ hi hc => keepsPending_of_inv hi hc) promptInv_idle htidy⟩

def openedTurn : List PromptEvent := [.spawn ⟨"a", "u"⟩, .advance 0 (.card (some "m") 0)]

def asks (requestId : String) (now : Nat) : PromptEvent :=
  .advance 0 (.permissionRequest { requestId := requestId, kind := .permission } now)

def taps (act : CardAct) (shown : Nat) : PromptEvent :=
  .outside { messageId := "m", openId := "u", act := some act, person := "u", shown := shown }

/-- Two requests follow each other on the card of a turn. -/
def followingRequests : List PromptEvent :=
  openedTurn ++ [asks "r" 1, taps .allow 0, asks "q" 2, taps .deny 1, .advance 0 .finish]

theorem resolvedRightly_followingRequests : RunMeets promptProgram.step Tidy idlePrompts followingRequests ∧
    ∃ s', run promptProgram.step idlePrompts followingRequests = some s' ∧ s'.shared.resolutions.length = 2 ∧
      SamePrompts s'.shared ∧ ResolvedRightly s'.shared ∧
      RunMeets promptProgram.step KeepsPending idlePrompts followingRequests := by
  have htidy : RunMeets promptProgram.step Tidy idlePrompts followingRequests := by decide
  obtain ⟨s', hrun, htwo⟩ := exists_run_of_map promptProgram.step idlePrompts followingRequests
    (fun s => decide (s.shared.resolutions.length = 2)) (by decide)
  exact ⟨htidy, s', hrun, of_decide_eq_true htwo, resolvedRightly_of_tidy htidy hrun⟩

/-- Two tools ask at the same time, and the first request times out. -/
def parallelRequests : List PromptEvent :=
  openedTurn ++ [asks "r" 1, asks "q" 2, .advance 0 (.permissionTimeout "r")]

/-- A tap on the first request comes in after it has timed out and the second one is on the card. -/
def staleTap : List PromptEvent :=
  openedTurn ++ [asks "r" 1, .advance 0 (.permissionTimeout "r"), asks "q" 2, taps .allow 0]

theorem sharedCard_not_resolvedRightly :
    (∃ s', run promptProgram.step idlePrompts parallelRequests = some s' ∧ ¬ SamePrompts s'.shared) ∧
      ∃ s', run promptProgram.step idlePrompts staleTap = some s' ∧ ¬ ResolvedRightly s'.shared := by
  constructor
  · obtain ⟨s', hrun, htest⟩ := exists_run_of_map promptProgram.step idlePrompts parallelRequests
      (fun s => decide (s.shared.pending 1 = true ∧ s.shared.byMessage = [])) (by decide)
    obtain ⟨hpending, hempty⟩ := of_decide_eq_true htest
    refine ⟨s', hrun, ?_⟩
    intro hsame
    have hmem := ((hsame 1).1).mpr hpending
    rw [hempty] at hmem
    cases hmem
  · obtain ⟨s', hrun, htest⟩ := exists_run_of_map promptProgram.step idlePrompts staleTap
      (fun s => decide (s.shared.resolutions.map (fun r => (r.prompt, r.tap.shown)) = [(1, 0)])) (by decide)
    obtain ⟨r, hr, hids⟩ := List.map_eq_singleton_iff.mp (of_decide_eq_true htest)
    obtain ⟨hid, hshown⟩ := Prod.mk.inj hids
    refine ⟨s', hrun, ?_⟩
    intro hresolved
    obtain ⟨prompt, -, htap, -⟩ := hresolved.right r (by rw [hr]; exact List.mem_cons_self)
    exact absurd (hshown.symm.trans (htap.1.trans hid)) (by decide)

end PrivaCloud.ChannelConnector
