import PrivaCloud.ChannelConnector.Callbacks

/-!
# Deliveries of scheduler callbacks

Each run is announced at most once and to the owner of its account, as long as no callback is sent again
after its delivery has been forgotten and nothing that a callback has read changes before its card is posted.
-/

namespace PrivaCloud.ChannelConnector

open Framework DataPlane
open DataPlane.SchedulerService (getRun)
open DataSpine (ChannelStore RunStatus)

abbrev CallbackState : Type := Processes CallbackWorld CallbackCall

abbrev CallbackEvent : Type := ProcessEvent CallbackRequest CallbackInput CallbackOutside

def Ended (store : Store) (key : DeliveryKey) : Prop :=
  ∃ run ∈ (getRun store key.1 key.2).toList, run.status ∈ terminalStatuses

def OwnedBy (channels : ChannelStore) (accountId : String) (receiver : Text) : Prop :=
  ∃ row ∈ (channels.feishuGet accountId).toList, ownerOpenId row = receiver

instance (store : Store) (key : DeliveryKey) : Decidable (Ended store key) :=
  inferInstanceAs (Decidable (∃ run ∈ _, _))

instance (channels : ChannelStore) (accountId : String) (receiver : Text) :
    Decidable (OwnedBy channels accountId receiver) := inferInstanceAs (Decidable (∃ row ∈ _, _))

/-- The card is for a run of the account that has ended, and goes to the owner of the account. -/
structure Addressed (s : CallbackWorld) (card : Card) : Prop where
  ended : Ended s.store card.key
  owned : OwnedBy s.channels card.key.1 card.receiver
  bound : card.receiver ≠ []

/-- A section posts no card, or one that is addressed rightly. -/
def PostsRightly (s : CallbackState) (event : CallbackEvent) : Prop :=
  ∀ s' ∈ callbackProgram.step s event, s'.shared.cards = s.shared.cards ∨
    ∃ card, s'.shared.cards = s.shared.cards ++ [card] ∧ Addressed s.shared card

def AnnouncedOnce (s : CallbackWorld) : Prop := (s.cards.map Card.key).Nodup

instance (s : CallbackWorld) : Decidable (AnnouncedOnce s) := inferInstanceAs (Decidable (List.Nodup _))

/-- What a callback has read, and not yet used. -/
def CallbackCall.Fresh (store : Store) (channels : ChannelStore) : CallbackCall → Prop
  | .verifying r (some (some run)) _ => run.status ∈ terminalStatuses → Ended store r.key
  | .configuring r => Ended store r.key
  | .sending r receiver => Ended store r.key ∧ OwnedBy channels r.accountId receiver
  | _ => True

instance (store : Store) (channels : ChannelStore) : (call : CallbackCall) → Decidable (call.Fresh store channels)
  | .verifying _ (some (some _)) _ => inferInstanceAs (Decidable (_ → _))
  | .configuring _ => inferInstanceAs (Decidable (Ended ..))
  | .sending .. => inferInstanceAs (Decidable (_ ∧ _))
  | .verifying _ none _ | .verifying _ (some none) _ | .waiting _ | .sent _ _ | .delivered _ | .raised _ _ =>
    .isTrue trivial

/-- A write to the data plane leaves the run and the owner as every callback has read them, and no card is
posted for a run whose earlier card has been forgotten. -/
def Fenced (s : CallbackState) : CallbackEvent → Prop
  | .outside (.dataPlane store channels) => ∀ p ∈ s.procs, p.Fresh store channels
  | .advance i (.post true _) =>
    match s.procs[i]? with
    | some (.sending r _) => r.key ∉ s.shared.unanswered ++ s.shared.evicted
    | _ => True
  | _ => True

instance (s : CallbackState) (event : CallbackEvent) : Decidable (Fenced s event) := by
  unfold Fenced
  split <;> first | infer_instance | (split <;> infer_instance)

namespace CallbackCall

def holds : CallbackCall → Option String
  | .verifying r _ _ | .configuring r | .sending r _ | .sent r _ => some r.accountId
  | .waiting _ | .delivered _ | .raised _ _ => none

/-- The delivery that is about to go into the cache. -/
def answered : CallbackCall → Option DeliveryKey
  | .sent r answer => if answer.any (· ≠ "") then some r.key else none
  | _ => none

/-- The run has not been announced as far as the cache knows, and there is somebody to tell. -/
def Open (cached : List DeliveryKey) : CallbackCall → Prop
  | .verifying r _ _ | .configuring r => r.key ∉ cached
  | .sending r receiver => r.key ∉ cached ∧ receiver ≠ []
  | _ => True

end CallbackCall

def CallbackWorld.cached (s : CallbackWorld) : List DeliveryKey := s.callbackDeliveries.map Prod.fst

/-- The card for a run is in the cache or on its way there, or it has been forgotten. -/
def Recorded (s : CallbackState) (key : DeliveryKey) : Prop :=
  key ∈ s.shared.cached ∨ key ∈ s.shared.unanswered ++ s.shared.evicted ∨ ∃ p ∈ s.procs, p.answered = some key

structure CallbackInv (s : CallbackState) : Prop where
  locked : Locked CallbackCall.holds (· ∈ s.shared.accountLocks) s.procs
  fresh : ∀ p ∈ s.procs, p.Fresh s.shared.store s.shared.channels
  opened : ∀ p ∈ s.procs, p.Open s.shared.cached
  filled : ∀ e ∈ s.shared.callbackDeliveries, e.2 ≠ ""
  recorded : ∀ card ∈ s.shared.cards, Recorded s card.key
  once : AnnouncedOnce s.shared

section Moves

variable {s : CallbackState} {shared : CallbackWorld} {i : Nat} {p p' : CallbackCall}
variable {r : CallbackRequest}

theorem forall_set {P : CallbackCall → Prop} (hp' : P p') (h : ∀ q ∈ s.procs, P q) : ∀ q ∈ s.procs.set i p', P q := by
  intro q hq
  rcases Program.mem_set_cases hq with rfl | hq
  · exact hp'
  · exact h q hq

private theorem CallbackInv.quiet (h : CallbackInv s) (hp : s.procs[i]? = some p) (hanswered : p.answered = none)
    (hlocked : Locked CallbackCall.holds (· ∈ shared.accountLocks) (s.procs.set i p'))
    (hstore : shared.store = s.shared.store) (hchannels : shared.channels = s.shared.channels)
    (hcache : shared.callbackDeliveries = s.shared.callbackDeliveries)
    (hcards : shared.cards = s.shared.cards)
    (hforgot : shared.unanswered ++ shared.evicted = s.shared.unanswered ++ s.shared.evicted)
    (hfresh : p'.Fresh s.shared.store s.shared.channels) (hopen : p'.Open s.shared.cached) :
    CallbackInv ⟨shared, s.procs.set i p'⟩ := by
  have hcached : shared.cached = s.shared.cached := congrArg (List.map Prod.fst) hcache
  refine ⟨hlocked, ?_, ?_, ?_, ?_, ?_⟩
  · rw [hstore, hchannels]
    exact forall_set hfresh h.fresh
  · rw [hcached]
    exact forall_set hopen h.opened
  · rw [hcache]
    exact h.filled
  · intro card hcard
    rw [hcards] at hcard
    unfold Recorded
    rw [hcached, hforgot]
    refine (h.recorded card hcard).imp_right (Or.imp_right ?_)
    rintro ⟨q, hq, hkey⟩
    refine ⟨q, Program.mem_set_of_ne hp hq ?_, hkey⟩
    rintro rfl
    rw [hanswered] at hkey
    cases hkey
  · unfold AnnouncedOnce
    rw [hcards]
    exact h.once

private theorem CallbackInv.goOn (h : CallbackInv s) (hp : s.procs[i]? = some p) (hanswered : p.answered = none)
    (hholds : p'.holds = p.holds) (hfresh : p'.Fresh s.shared.store s.shared.channels)
    (hopen : p'.Open s.shared.cached) : CallbackInv ⟨s.shared, s.procs.set i p'⟩ :=
  h.quiet hp hanswered (h.locked.keep hp hholds fun _ hk => hk) rfl rfl rfl rfl rfl hfresh hopen

private theorem locked_unlock (h : CallbackInv s) (hp : s.procs[i]? = some p) {aid : String}
    (hholds : p.holds = some aid) (hfree : p'.holds = none) (shared : CallbackWorld)
    (hlocks : shared.accountLocks = s.shared.accountLocks) :
    Locked CallbackCall.holds (· ∈ (shared.unlock aid).accountLocks) (s.procs.set i p') := by
  refine h.locked.release hp hholds hfree ?_
  intro k hk hne
  refine List.mem_filter.mpr ⟨?_, by simpa using hne⟩
  rw [hlocks]
  exact hk

private theorem CallbackInv.raise (h : CallbackInv s) (hp : s.procs[i]? = some p) (hanswered : p.answered = none)
    (hholds : p.holds = some r.accountId) {error : CallbackError} {message : String}
    {next : CallbackWorld × CallbackCall} (hact : CallbackCall.raise s.shared r error message = some next) :
    CallbackInv ⟨next.1, s.procs.set i next.2⟩ := by
  cases hact
  exact h.quiet hp hanswered (locked_unlock h hp hholds rfl s.shared rfl) rfl rfl rfl rfl rfl trivial trivial

private theorem CallbackInv.acquire (h : CallbackInv s) (hp : s.procs[i]? = some (.waiting r))
    (hfree : r.accountId ∉ s.shared.accountLocks) (hopen : r.key ∉ s.shared.cached)
    (attempts : List (String × List Nat)) :
    CallbackInv ⟨{ s.shared with callbackAttempts := attempts, accountLocks := r.accountId :: s.shared.accountLocks },
      s.procs.set i (.verifying r none none)⟩ := by
  refine h.quiet hp rfl ?_ rfl rfl rfl rfl rfl trivial hopen
  exact h.locked.acquire hfree rfl (fun _ hk => List.mem_cons_of_mem _ hk) List.mem_cons_self

private theorem CallbackInv.post (h : CallbackInv s) {receiver : Text} {answer : Option String}
    (hp : s.procs[i]? = some (.sending r receiver)) (hremembered : r.key ∉ s.shared.unanswered ++ s.shared.evicted) :
    CallbackInv ⟨s.shared.post ⟨r.key, receiver⟩ (answer.any (· ≠ "")), s.procs.set i (.sent r answer)⟩ := by
  have hopen : r.key ∉ s.shared.cached := (h.opened _ (List.mem_of_getElem? hp)).1
  have hnew : r.key ∉ s.shared.cards.map Card.key := by
    intro hmem
    obtain ⟨card, hcard, hkey⟩ := List.mem_map.mp hmem
    rcases h.recorded card hcard with hin | hforgot | ⟨q, hq, hanswered⟩
    · exact hopen (hkey ▸ hin)
    · exact hremembered (hkey ▸ hforgot)
    · -- another callback for this run would hold the lock of the account
      obtain ⟨j, hj⟩ := List.mem_iff_getElem?.mp hq
      cases q with
      | sent r' answer' =>
        have hsame : r'.key = card.key := by
          simp only [CallbackCall.answered] at hanswered
          split at hanswered
          · exact Option.some.inj hanswered
          · cases hanswered
        have haccount : r'.accountId = r.accountId := congrArg Prod.fst (hsame.trans hkey)
        have hij := h.locked.apart j i _ _ r.accountId hj hp (by rw [← haccount]; rfl) rfl
        rw [hij, hp] at hj
        cases hj
      | _ => cases hanswered
  refine ⟨h.locked.keep hp rfl fun _ hk => hk, forall_set trivial h.fresh, forall_set trivial h.opened, h.filled, ?_, ?_⟩
  · intro card hcard
    rcases List.mem_append.mp hcard with hcard | hcard
    · rcases h.recorded card hcard with hin | hforgot | ⟨q, hq, hkey⟩
      · exact .inl hin
      · refine .inr (.inl ?_)
        rcases List.mem_append.mp hforgot with hlost | hevicted
        · refine List.mem_append_left _ ?_
          simp only [CallbackWorld.post]
          split
          · exact hlost
          · exact List.mem_append_left _ hlost
        · exact List.mem_append_right _ hevicted
      · refine .inr (.inr ⟨q, Program.mem_set_of_ne hp hq ?_, hkey⟩)
        rintro rfl
        cases hkey
    · rw [List.mem_singleton.mp hcard]
      by_cases hanswered : answer.any (· ≠ "") = true
      · refine .inr (.inr ⟨.sent r answer, Program.self_mem_set hp, ?_⟩)
        exact if_pos hanswered
      · refine .inr (.inl (List.mem_append_left _ ?_))
        simp only [CallbackWorld.post]
        rw [if_neg hanswered]
        exact List.mem_append_right _ List.mem_cons_self
  · unfold AnnouncedOnce CallbackWorld.post
    rw [List.map_append]
    refine List.nodup_append.mpr ⟨h.once, List.nodup_singleton _, ?_⟩
    intro key hkey key' hkey' heq
    rw [List.map_singleton, List.mem_singleton] at hkey'
    rw [heq, hkey'] at hkey
    exact hnew hkey

theorem CallbackInv.deliver (h : CallbackInv s) {answer : Option String} {messageId : String}
    (hp : s.procs[i]? = some (.sent r answer)) (hne : messageId ≠ "") (room : Nat) :
    CallbackInv ⟨(s.shared.deliver room r.key messageId).unlock r.accountId, s.procs.set i (.delivered messageId)⟩ := by
  have hkept (key : DeliveryKey) (hkey : key = r.key ∨ key ∈ s.shared.cached) :
      key ∈ (s.shared.deliver room r.key messageId).cached ∨ key ∈ (s.shared.deliver room r.key messageId).evicted := by
    obtain ⟨e, he, rfl⟩ := List.mem_map.mp
      ((mem_keys_assign s.shared.callbackDeliveries r.key key messageId).mpr hkey)
    rcases (mem_evictOldest room _ e).mp he with hin | hgone
    · exact .inl (List.mem_map_of_mem hin)
    · exact .inr (List.mem_append_right _ (List.mem_map_of_mem hgone))
  have hstored (e : DeliveryKey × String) (he : e ∈ (s.shared.deliver room r.key messageId).callbackDeliveries) :
      e ∈ assign s.shared.callbackDeliveries r.key messageId :=
    (mem_evictOldest room _ e).mpr (.inl he)
  have honly (key : DeliveryKey) (hin : key ∈ (s.shared.deliver room r.key messageId).cached) :
      key = r.key ∨ key ∈ s.shared.cached := by
    obtain ⟨e, he, rfl⟩ := List.mem_map.mp hin
    exact (mem_keys_assign s.shared.callbackDeliveries r.key e.1 messageId).mp (List.mem_map_of_mem (hstored e he))
  refine ⟨locked_unlock h hp rfl rfl _ rfl, forall_set trivial h.fresh, ?_, ?_, ?_, h.once⟩
  · intro q hq
    obtain ⟨j, hj⟩ := List.mem_iff_getElem?.mp hq
    rcases Program.getElem?_set_cases hj with ⟨-, rfl⟩ | ⟨hji, hj⟩
    · trivial
    have hother := h.locked.other hp rfl hji hj
    have hopen := h.opened q (List.mem_of_getElem? hj)
    -- the others that are open are those of other accounts
    have hstays (r' : CallbackRequest) (haccount : r'.accountId ≠ r.accountId) (hout : r'.key ∉ s.shared.cached) :
        r'.key ∉ (s.shared.deliver room r.key messageId).cached := by
      intro hin
      rcases honly _ hin with hsame | hin
      · exact haccount (congrArg Prod.fst hsame)
      · exact hout hin
    cases q with
    | verifying r' run job => exact hstays r' (fun hsame => hother (congrArg some hsame)) hopen
    | configuring r' => exact hstays r' (fun hsame => hother (congrArg some hsame)) hopen
    | sending r' receiver => exact ⟨hstays r' (fun hsame => hother (congrArg some hsame)) hopen.1, hopen.2⟩
    | waiting r' => trivial
    | sent r' answer' => trivial
    | delivered messageId' => trivial
    | raised error message => trivial
  · intro e he
    rcases snd_of_mem_assign (hstored e he) with hnew | hold
    · rw [hnew]
      exact hne
    · exact h.filled e hold
  · intro card hcard
    have hrecord (key : DeliveryKey) (hkey : key = r.key ∨ key ∈ s.shared.cached) :
        Recorded ⟨(s.shared.deliver room r.key messageId).unlock r.accountId, s.procs.set i (.delivered messageId)⟩ key := by
      rcases hkept key hkey with hin | hgone
      · exact .inl hin
      · exact .inr (.inl (List.mem_append_right _ hgone))
    rcases h.recorded card hcard with hin | hforgot | ⟨q, hq, hkey⟩
    · exact hrecord card.key (.inr hin)
    · refine .inr (.inl ?_)
      rcases List.mem_append.mp hforgot with hlost | hevicted
      · exact List.mem_append_left _ hlost
      · exact List.mem_append_right _ (List.mem_append_left _ hevicted)
    · by_cases hsame : q = .sent r answer
      · refine hrecord card.key (.inl ?_)
        rw [hsame] at hkey
        simp only [CallbackCall.answered] at hkey
        split at hkey
        · exact (Option.some.inj hkey).symm
        · cases hkey
      · exact .inr (.inr ⟨q, Program.mem_set_of_ne hp hq hsame, hkey⟩)

end Moves

section Act

variable {s : CallbackState} {i : Nat} {r : CallbackRequest} {next : CallbackWorld × CallbackCall}

theorem ended_of_verified {payload : CallbackPayload} {run : Option JobRunRecord} {job : Option ScheduledJobDefinition}
    (h : verifySchedulerCallback payload run job = none) : ∃ record ∈ run.toList, record.status ∈ terminalStatuses := by
  cases run with
  | none => cases h
  | some record =>
    refine ⟨record, List.mem_cons_self, ?_⟩
    by_contra hstatus
    simp only [verifySchedulerCallback, hstatus, not_false_eq_true, if_true] at h
    split_ifs at h

private theorem fresh_readRun (store : Store) (channels : ChannelStore) (job : Option (Option ScheduledJobDefinition)) :
    (CallbackCall.verifying r (some (getRun store r.accountId r.payload.runId)) job).Fresh store channels := by
  cases hrun : getRun store r.accountId r.payload.runId with
  | none => trivial
  | some record =>
    intro hstatus
    exact ⟨record, by simp [CallbackRequest.key, hrun], hstatus⟩

private theorem CallbackInv.verified (h : CallbackInv s) {run run' : Option (Option JobRunRecord)}
    {job job' : Option (Option ScheduledJobDefinition)} (hp : s.procs[i]? = some (.verifying r run job))
    (hfresh : (CallbackCall.verifying r run' job').Fresh s.shared.store s.shared.channels)
    (hact : CallbackCall.verified s.shared r run' job' = some next) : CallbackInv ⟨next.1, s.procs.set i next.2⟩ := by
  have hopen : r.key ∉ s.shared.cached := h.opened _ (List.mem_of_getElem? hp)
  unfold CallbackCall.verified at hact
  split at hact
  · rename_i record found
    split at hact
    · exact h.raise hp rfl rfl hact
    · rename_i hverified
      cases hact
      refine h.goOn hp rfl rfl ?_ hopen
      obtain ⟨ended, hmem, hstatus⟩ := ended_of_verified hverified
      obtain rfl := Option.mem_toList.mp hmem
      exact hfresh hstatus
  · cases hact
    exact h.goOn hp rfl rfl hfresh hopen

private theorem CallbackInv.configured (h : CallbackInv s) (hp : s.procs[i]? = some (.configuring r))
    (hact : CallbackCall.configured s.shared r (s.shared.channels.feishuGet r.accountId) = some next) :
    CallbackInv ⟨next.1, s.procs.set i next.2⟩ := by
  have hopen : r.key ∉ s.shared.cached := h.opened _ (List.mem_of_getElem? hp)
  have hended : Ended s.shared.store r.key := h.fresh _ (List.mem_of_getElem? hp)
  unfold CallbackCall.configured at hact
  split at hact
  · exact h.raise hp rfl rfl hact
  · rename_i row hrow
    split at hact
    · exact h.raise hp rfl rfl hact
    · rename_i hbound
      split at hact
      · exact h.raise hp rfl rfl hact
      · split at hact
        · exact h.raise hp rfl rfl hact
        · cases hact
          refine h.goOn hp rfl rfl ⟨hended, row, ?_, rfl⟩ ⟨hopen, hbound⟩
          rw [Option.mem_toList]
          exact (Option.filter_eq_some_iff.mp hrow).1

private theorem CallbackInv.act {p : CallbackCall} {input : CallbackInput} (h : CallbackInv s)
    (hc : Fenced s (.advance i input)) (hp : s.procs[i]? = some p) (hact : p.act s.shared input = some next) :
    CallbackInv ⟨next.1, s.procs.set i next.2⟩ := by
  unfold CallbackCall.act at hact
  split at hact
  · rename_i r now
    split at hact
    · cases hact
    · rename_i hfree
      split at hact
      · cases hact
        exact h.goOn hp rfl rfl trivial trivial
      · rename_i hmiss
        have hopen : r.key ∉ s.shared.cached := by
          intro hin
          obtain ⟨messageId, hfound⟩ := getValue_isSome hin
          rw [hfound, Option.filter_eq_none_iff] at hmiss
          exact hmiss messageId rfl (by simpa using h.filled _ (getValue_mem hfound))
        dsimp only at hact
        split at hact
        · cases hact
          simp only [CallbackWorld.consumeCallbackRate]
          split
          · exact h.acquire hp hfree hopen _
          · exact h.acquire hp hfree hopen _
        · cases hact
          simp only [CallbackWorld.consumeCallbackRate]
          split
          · exact h.quiet hp rfl (h.locked.keep hp rfl fun _ hk => hk) rfl rfl rfl rfl rfl trivial trivial
          · exact h.quiet hp rfl (h.locked.keep hp rfl fun _ hk => hk) rfl rfl rfl rfl rfl trivial trivial
  · exact h.verified hp (fresh_readRun s.shared.store s.shared.channels _) hact
  · rename_i r run
    refine h.verified hp ?_ hact
    have hwas := h.fresh _ (List.mem_of_getElem? hp)
    cases run with
    | none => trivial
    | some run =>
      cases run with
      | none => trivial
      | some record => exact hwas
  · exact h.raise hp rfl rfl hact
  · exact h.configured hp hact
  · exact h.raise hp rfl rfl hact
  · rename_i r receiver posted answer
    cases hact
    cases posted with
    | true =>
      simp only [Fenced, hp] at hc
      exact h.post hp hc
    | false => exact h.goOn hp rfl rfl trivial trivial
  · rename_i r answer
    split at hact
    · rename_i hlost
      have hanswered : (CallbackCall.sent r answer).answered = none := by
        refine if_neg ?_
        rw [Option.any_eq_true]
        rintro ⟨messageId, hsome, hne⟩
        exact Option.filter_eq_none_iff.mp hlost messageId hsome hne
      exact h.raise hp hanswered rfl hact
    · rename_i messageId hfound
      cases hact
      exact h.deliver hp (by simpa using (Option.filter_eq_some_iff.mp hfound).2) _
  · cases hact

private theorem cards_deliver (shared : CallbackWorld) (room : Nat) (key : DeliveryKey) (messageId aid : String) :
    ((shared.deliver room key messageId).unlock aid).cards = shared.cards := rfl

private theorem cards_act {shared : CallbackWorld} {p : CallbackCall} {input : CallbackInput}
    (hact : p.act shared input = some next) : next.1.cards = shared.cards ∨
      ∃ r receiver, p = .sending r receiver ∧ next.1.cards = shared.cards ++ [⟨r.key, receiver⟩] := by
  have hraise {r : CallbackRequest} {error : CallbackError} {message : String}
      (h : CallbackCall.raise shared r error message = some next) : next.1.cards = shared.cards := by
    cases h
    rfl
  have hverified {r : CallbackRequest} {run : Option (Option JobRunRecord)} {job : Option (Option ScheduledJobDefinition)}
      (h : CallbackCall.verified shared r run job = some next) : next.1.cards = shared.cards := by
    unfold CallbackCall.verified at h
    split at h
    · split at h
      · exact hraise h
      · cases h
        rfl
    · cases h
      rfl
  unfold CallbackCall.act at hact
  split at hact
  · left
    split at hact
    · cases hact
    · split at hact
      · cases hact
        rfl
      · simp only [CallbackWorld.consumeCallbackRate] at hact
        split at hact
        · split at hact
          · cases hact
            rfl
          · cases hact
            rfl
        · cases hact
          rfl
  · exact .inl (hverified hact)
  · exact .inl (hverified hact)
  · exact .inl (hraise hact)
  · left
    unfold CallbackCall.configured at hact
    split at hact
    · exact hraise hact
    · split at hact
      · exact hraise hact
      · split at hact
        · exact hraise hact
        · split at hact
          · exact hraise hact
          · cases hact
            rfl
  · exact .inl (hraise hact)
  · rename_i r receiver posted answer
    cases hact
    cases posted with
    | true => exact .inr ⟨r, receiver, rfl, rfl⟩
    | false => exact .inl rfl
  · left
    split at hact
    · exact hraise hact
    · cases hact
      exact cards_deliver shared _ _ _ _
  · cases hact

end Act

section Runs

variable {s s' : CallbackState} {event : CallbackEvent}

private theorem postsRightly_of_inv (h : CallbackInv s) : PostsRightly s event := by
  intro s' hs
  cases event with
  | spawn r =>
    cases hs
    exact .inl rfl
  | outside event =>
    obtain ⟨shared, ho, rfl⟩ := Program.outside_eq_some hs
    cases event with
    | dataPlane store channels =>
      cases ho
      exact .inl rfl
    | rearm aid digest =>
      simp only [callbackProgram] at ho
      split at ho <;> cases ho
      exact .inl rfl
  | advance i input =>
    obtain ⟨p, next, hp, hact, rfl⟩ := Program.advance_eq_some hs
    rcases cards_act hact with hsame | ⟨r, receiver, rfl, hposted⟩
    · exact .inl hsame
    · obtain ⟨hended, howned⟩ := h.fresh _ (List.mem_of_getElem? hp)
      exact .inr ⟨_, hposted, hended, howned, (h.opened _ (List.mem_of_getElem? hp)).2⟩

private theorem callback_step (h : CallbackInv s) (hc : Fenced s event) (hs : callbackProgram.step s event = some s') :
    CallbackInv s' := by
  cases event with
  | spawn r =>
    cases hs
    refine ⟨h.locked.spawn rfl, ?_, ?_, h.filled, ?_, h.once⟩
    · intro p hp
      rcases List.mem_append.mp hp with hp | hp
      · exact h.fresh p hp
      · rw [List.mem_singleton.mp hp]
        trivial
    · intro p hp
      rcases List.mem_append.mp hp with hp | hp
      · exact h.opened p hp
      · rw [List.mem_singleton.mp hp]
        trivial
    · intro card hcard
      refine (h.recorded card hcard).imp_right (Or.imp_right ?_)
      rintro ⟨p, hp, hkey⟩
      exact ⟨p, List.mem_append_left _ hp, hkey⟩
  | advance i input =>
    obtain ⟨p, next, hp, hact, rfl⟩ := Program.advance_eq_some hs
    exact h.act hc hp hact
  | outside event =>
    obtain ⟨shared, ho, rfl⟩ := Program.outside_eq_some hs
    cases event with
    | dataPlane store channels =>
      cases ho
      exact ⟨h.locked, hc, h.opened, h.filled, h.recorded, h.once⟩
    | rearm aid digest =>
      simp only [callbackProgram] at ho
      split at ho <;> cases ho
      exact ⟨h.locked, h.fresh, h.opened, h.filled, h.recorded, h.once⟩

def idleConnector (store : Store) (channels : ChannelStore) : CallbackState :=
  ⟨{ store := store, channels := channels }, []⟩

theorem callbackInv_idle (store : Store) (channels : ChannelStore) : CallbackInv (idleConnector store channels) := by
  refine ⟨.nil, ?_, ?_, ?_, ?_, List.nodup_nil⟩
  · rintro p ⟨⟩
  · rintro p ⟨⟩
  · rintro e ⟨⟩
  · rintro card ⟨⟩

end Runs

/-- Along every fenced run a run is announced at most once, and every card goes to the owner of the account
of a run that has ended. -/
theorem announcedOnce_of_fenced {store : Store} {channels : ChannelStore} {s' : CallbackState}
    {events : List CallbackEvent} (hfenced : RunMeets callbackProgram.step Fenced (idleConnector store channels) events)
    (hrun : run callbackProgram.step (idleConnector store channels) events = some s') :
    AnnouncedOnce s'.shared ∧ RunMeets callbackProgram.step PostsRightly (idleConnector store channels) events := by
  have hstep (s : CallbackState) (event : CallbackEvent) (next : CallbackState) (hi : CallbackInv s)
      (hc : Fenced s event) (hs : callbackProgram.step s event = some next) : CallbackInv next :=
    callback_step hi hc hs
  have hinit := callbackInv_idle store channels
  constructor
  · exact (run_invariant hstep hinit hfenced hrun).once
  · exact runMeets_of_invariant hstep (fun _ _ hi _ => postsRightly_of_inv hi) hinit hfenced

/-- A job that asks for a card, and two of its runs. -/
def announcedJob : JobRow where
  jobId := "j"
  accountId := "a"
  name := "report"
  prompt := "p"
  trigger := .interval { hours := 1 }
  jobType := .agentRun
  jobConfig := some (.agentRun { prompt := "p", callback := true })
  timezone := "UTC"
  model := none
  status := .active
  createdAt := .ofText "1"
  updatedAt := .ofText "1"

def announcedRun (runId : String) (status : RunStatus) : RunRow where
  runId := runId
  jobId := some "j"
  jobName := "report"
  accountId := "a"
  sessionId := none
  startedAt := .ofText "2"
  finishedAt := some (.ofText "3")
  status := status
  durationMs := some 1
  isError := false
  errorMessage := none
  numTurns := none
  resultSummary := none

def announcedStore : Store where
  jobs.rows := [announcedJob]
  runs.rows := [announcedRun "r" .success, announcedRun "t" .error]
  runs.nodup := by decide

/-- The channel of the account, bound to this owner. -/
def boundChannel (owner : String) : ChannelStore where
  accounts := ["a"]
  rows.rows := [{
    accountId := "a", appId := some "x", appSecretEnc := some "s", userEnabled := true,
    ownerOpenId := owner, desiredDigest := some "d" }]

def announcement (runId : String) (status : RunStatus) : CallbackRequest where
  accountId := "a"
  payload := { runId := runId, jobId := "j", jobName := "report", jobType := .agentRun, status := status }

def smallConnector : CallbackState := idleConnector announcedStore (boundChannel "o")

def checked (i : Nat) : List CallbackEvent :=
  [.advance i (.lock 0), .advance i .readRun, .advance i .readJob, .advance i .readConfig]

/-- Two runs are announced, one of them by two callbacks. -/
def announcedRuns : List CallbackEvent :=
  .outside (.rearm "a" (some (some "d"))) :: .spawn (announcement "r" .success) :: .spawn (announcement "r" .success) ::
    .spawn (announcement "t" .error) :: checked 0 ++ [.advance 0 (.post true (some "m")), .advance 0 .resume] ++
    checked 2 ++ [.advance 2 (.post true (some "n")), .advance 2 .resume, .advance 1 (.lock 1)]

theorem announcedOnce_announcedRuns : RunMeets callbackProgram.step Fenced smallConnector announcedRuns ∧
    ∃ s', run callbackProgram.step smallConnector announcedRuns = some s' ∧ s'.shared.cards.length = 2 ∧
      AnnouncedOnce s'.shared ∧ RunMeets callbackProgram.step PostsRightly smallConnector announcedRuns := by
  have hfenced : RunMeets callbackProgram.step Fenced smallConnector announcedRuns := by decide
  obtain ⟨s', hrun, hcards⟩ := exists_run_of_map callbackProgram.step smallConnector announcedRuns
    (fun s => decide (s.shared.cards.length = 2)) (by decide)
  exact ⟨hfenced, s', hrun, of_decide_eq_true hcards, announcedOnce_of_fenced hfenced hrun⟩

/-- The answer to a card is lost, and the callback is sent again. -/
def lostAnswer : List CallbackEvent :=
  .outside (.rearm "a" (some (some "d"))) :: .spawn (announcement "r" .success) :: checked 0 ++
    [.advance 0 (.post true none), .advance 0 .resume, .spawn (announcement "r" .success)] ++ checked 1 ++
    [.advance 1 (.post true (some "m"))]

/-- The account is bound to another owner while a callback is about to post its card. -/
def reboundRun : List CallbackEvent :=
  .outside (.rearm "a" (some (some "d"))) :: .spawn (announcement "r" .success) :: checked 0 ++
    [.outside (.dataPlane announcedStore (boundChannel "p"))]

theorem forgottenCard_not_announcedOnce :
    (∃ s', run callbackProgram.step smallConnector lostAnswer = some s' ∧ ¬ AnnouncedOnce s'.shared) ∧
      ∃ s, run callbackProgram.step smallConnector reboundRun = some s ∧
        ¬ PostsRightly s (.advance 0 (.post true (some "m"))) := by
  constructor
  · obtain ⟨s', hrun, htest⟩ := exists_run_of_map callbackProgram.step smallConnector lostAnswer
      (fun s => decide (¬ AnnouncedOnce s.shared)) (by decide)
    exact ⟨s', hrun, of_decide_eq_true htest⟩
  · obtain ⟨s, hrun, htest⟩ := exists_run_of_map callbackProgram.step smallConnector reboundRun
      (fun s => decide (s.procs = [.sending (announcement "r" .success) ['o']] ∧
        ¬ OwnedBy s.shared.channels "a" ['o'])) (by decide)
    obtain ⟨hprocs, hunowned⟩ := of_decide_eq_true htest
    refine ⟨s, hrun, ?_⟩
    intro hright
    have hs : callbackProgram.step s (.advance 0 (.post true (some "m"))) =
        some ⟨s.shared.post ⟨("a", "r"), ['o']⟩ true, [.sent (announcement "r" .success) (some "m")]⟩ := by
      simp only [Program.step, hprocs]
      rfl
    rcases hright _ hs with hsame | ⟨card, hposted, haddressed⟩
    · exact absurd (congrArg List.length hsame) (by simp [CallbackWorld.post])
    · obtain rfl := List.cons.inj (List.append_cancel_left hposted) |>.1
      exact hunowned haddressed.owned

end PrivaCloud.ChannelConnector
