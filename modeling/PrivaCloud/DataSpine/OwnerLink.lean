import PrivaCloud.DataSpine.ChannelDigest

/-!
# The owner link code

What the calls of the service do to the link code and the owner of an account. A code is used once along
exactly those runs in which `bind_owner_with_code` still finds, when it writes, what it has checked.
-/

namespace PrivaCloud.DataSpine

open Framework
open ChannelCall (codeHash presented accepts owner)

inductive LinkEvent
  /-- `create_link_code` has written a code. -/
  | minted (code : String) (expires : Nat)
  /-- `unbind_owner` has written. -/
  | discarded
  /-- `bind_owner_with_code` has written and returns `True`. -/
  | bound (code unionId openId : String) (now : Nat)

/-- The calls with the requests that they began with, and what has happened to the codes, newest first -/
structure OwnerLinks where
  calls : Processes ChannelStore ChannelCall
  requests : List ChannelRequest
  history : List (String × LinkEvent)

namespace OwnerLinks

def eventOf (now : Nat) : ChannelRequest → Option (String × LinkEvent)
  | .createLinkCode accountId code expires => some (accountId, .minted code expires)
  | .bindOwnerWithCode accountId code unionId openId => some (accountId, .bound code unionId openId now)
  | .unbindOwner accountId _ => some (accountId, .discarded)
  | .setUser .. | .setAdmin .. | .setPlatform .. => none

/-- What a section does to a code: the write of one of the three calls, if no constraint refuses it. -/
def happening (s : OwnerLinks) : ProcessEvent ChannelRequest Nat Empty → Option (String × LinkEvent)
  | .advance i now =>
    match s.calls.procs[i]?, s.requests[i]? with
    | some (.upserting accountId fields merged groupDisabled), some request =>
      let written := { fields with desiredDigest := some (digest merged.digestCols groupDisabled) }
      if (s.calls.shared.feishuUpsert accountId written).isSome then eventOf now request else none
    | _, _ => none
  | _ => none

def asked (s : OwnerLinks) : ProcessEvent ChannelRequest Nat Empty → List ChannelRequest
  | .spawn request => s.requests ++ [request]
  | _ => s.requests

def step (s : OwnerLinks) (event : ProcessEvent ChannelRequest Nat Empty) : Option OwnerLinks :=
  (channelProgram.step s.calls event).map fun calls => ⟨calls, s.asked event, (s.happening event).toList ++ s.history⟩

def start (store : ChannelStore) : OwnerLinks := ⟨⟨store, []⟩, [], []⟩

def ofAccount (s : OwnerLinks) (accountId : String) : List LinkEvent :=
  s.history.filterMap fun entry => if entry.1 = accountId then some entry.2 else none

end OwnerLinks

/-- The code presented was the last to be written, and nothing has happened to it since. -/
def Usable (code : String) (now : Nat) : List LinkEvent → Prop
  | .minted issued expires :: _ => codeHash issued = codeHash (presented code) ∧ now ≤ expires
  | _ => False

instance (code : String) (now : Nat) : (history : List LinkEvent) → Decidable (Usable code now history)
  | .minted _ _ :: _ => inferInstanceAs (Decidable (_ ∧ _))
  | [] | .discarded :: _ | .bound .. :: _ => .isFalse id

/-- A call returns `True` directly behind the write of the code that it presents, before the code expires. So
a code has one such call at most, and none behind another code or an `unbind_owner`. -/
def SingleUse : List LinkEvent → Prop
  | [] => True
  | .bound code _ _ now :: earlier => Usable code now earlier ∧ SingleUse earlier
  | .minted _ _ :: earlier | .discarded :: earlier => SingleUse earlier

instance decidableSingleUse : (history : List LinkEvent) → Decidable (SingleUse history)
  | [] => .isTrue trivial
  | .bound _ _ _ _ :: earlier =>
    have := decidableSingleUse earlier
    inferInstanceAs (Decidable (_ ∧ _))
  | .minted _ _ :: earlier | .discarded :: earlier => decidableSingleUse earlier

namespace OwnerLinks

/-- When the owner has just been bound, it is the one who presented the code. -/
def Owned (s : OwnerLinks) (accountId : String) : Prop :=
  ∀ code unionId openId now earlier, s.ofAccount accountId = .bound code unionId openId now :: earlier →
    (s.calls.shared.current accountId).ownerUnionId = unionId ∧ (s.calls.shared.current accountId).ownerOpenId = openId

/-- When `bind_owner_with_code` writes, the row still passes its checks. -/
def StillValid (s : OwnerLinks) (event : ProcessEvent ChannelRequest Nat Empty) : Prop :=
  match s.happening event with
  | some (accountId, .bound code unionId _ now) =>
    (s.calls.shared.feishuGet accountId).any (accepts · code unionId now) = true
  | _ => True

instance (s : OwnerLinks) (event : ProcessEvent ChannelRequest Nat Empty) : Decidable (s.StillValid event) := by
  unfold StillValid
  split <;> infer_instance

end OwnerLinks

structure LinkCols where
  hash : Option String
  expires : Option Nat
  unionId : String
  openId : String

def FeishuRow.linkCols (row : FeishuRow) : LinkCols where
  hash := row.linkCodeHash
  expires := row.linkCodeExpiresAt
  unionId := row.ownerUnionId
  openId := row.ownerOpenId

def LinkEvent.leaves : LinkEvent → LinkCols → LinkCols
  | .minted code expires, cols => { cols with hash := some (codeHash code), expires := some expires }
  | .discarded, _ => ⟨none, none, "", ""⟩
  | .bound _ unionId openId _, _ => ⟨none, none, unionId, openId⟩

def requestLeaves (request : ChannelRequest) (cols : LinkCols) : LinkCols :=
  match OwnerLinks.eventOf 0 request with
  | some entry => entry.2.leaves cols
  | none => cols

/-- What a call writes is what its request says, and a bind has been checked. -/
structure Writes (request : ChannelRequest) (accountId : String) (fields : FeishuFields) : Prop where
  cols : ∀ row, (fields.over row).linkCols = requestLeaves request row.linkCols
  account : ∀ now, ∀ entry ∈ OwnerLinks.eventOf now request, entry.1 = accountId
  checked : ∀ accountId' code unionId openId, request = .bindOwnerWithCode accountId' code unionId openId →
    code ≠ "" ∧ unionId ≠ ""

def Explains (request : ChannelRequest) : ChannelCall → Prop
  | .checking accountId code unionId openId => request = .bindOwnerWithCode accountId code unionId openId
  | .writeDesired accountId fields | .merging accountId fields _ | .upserting accountId fields _ _ =>
    Writes request accountId fields
  | .setting .. | .recomputing | .listing _ | .rewriting .. | .ended => True

theorem explains_enter (request : ChannelRequest) : Explains request (ChannelCall.enter request) := by
  cases request with
  | setUser accountId args =>
    exact ⟨fun row => rfl, fun _ _ hentry => (by cases hentry), fun _ _ _ _ heq => (by cases heq)⟩
  | setAdmin accountId adminDisabled updatedBy =>
    exact ⟨fun row => rfl, fun _ _ hentry => (by cases hentry), fun _ _ _ _ heq => (by cases heq)⟩
  | createLinkCode accountId code expires =>
    refine ⟨fun row => rfl, fun now entry hentry => ?_, fun _ _ _ _ heq => (by cases heq)⟩
    cases hentry
    rfl
  | bindOwnerWithCode accountId code unionId openId => rfl
  | unbindOwner accountId updatedBy =>
    refine ⟨fun row => rfl, fun now entry hentry => ?_, fun _ _ _ _ heq => (by cases heq)⟩
    cases hentry
    rfl
  | setPlatform groupChatDisabled updatedBy => trivial

variable {now : Nat} {code unionId : String}

theorem accepts_iff {row : FeishuRow} (hcode : code ≠ "") (hunion : unionId ≠ "") :
    accepts row code unionId now = true ↔
      row.linkCodeHash = some (codeHash (presented code)) ∧ ∃ expires, row.linkCodeExpiresAt = some expires ∧ now ≤ expires := by
  have hne : codeHash (presented code) ≠ "" := by
    intro h
    have hlength := congrArg (fun text => text.toList.length) h
    simp [codeHash, Sha256.hexdigest, Sha256.hex] at hlength
  unfold accepts
  cases hhash : row.linkCodeHash with
  | none => simp
  | some stored =>
    cases hexpires : row.linkCodeExpiresAt with
    | none => simp
    | some expires =>
      simp only [hcode, hunion, ne_eq, not_false_eq_true, decide_true, Bool.true_and, Bool.and_eq_true,
        decide_eq_true_eq, Bool.not_eq_true', decide_eq_false_iff_not, not_lt, Option.some.injEq,
        exists_eq_left']
      constructor
      · rintro ⟨⟨-, hstored⟩, hnow⟩
        exact ⟨hstored, hnow⟩
      · rintro ⟨hstored, hnow⟩
        exact ⟨⟨hstored ▸ hne, hstored⟩, hnow⟩

theorem accepts_nonempty {row : FeishuRow} (h : accepts row code unionId now = true) :
    code ≠ "" ∧ unionId ≠ "" := by
  rw [accepts, Bool.and_eq_true, Bool.and_eq_true] at h
  exact ⟨of_decide_eq_true h.1.1, of_decide_eq_true h.1.2⟩

namespace ChannelStore

variable {s s' : ChannelStore} {accountId : String} {fields : FeishuFields}

theorem current_feishuUpsert (h : s.feishuUpsert accountId fields = some s') (other : String) :
    s'.current other = if accountId = other then fields.over (s.current accountId) else s.current other := by
  unfold feishuUpsert at h
  split at h <;> cases h
  have hkey : (fields.over (s.current accountId)).accountId = accountId := current_accountId
  rw [current, feishuGet, Table.find?_upsert, hkey]
  split <;> rfl

theorem linkCols_feishuUpsert_digest {fresh : String} (h : s.feishuUpsert accountId { desiredDigest := some fresh } = some s')
    (other : String) : (s'.current other).linkCols = (s.current other).linkCols := by
  rw [current_feishuUpsert h]
  split
  · rename_i heq
    rw [heq]
    rfl
  · rfl

end ChannelStore

/-- A call that begins with a request goes on as the request says. A section writes the columns of the link as
the request leaves them, or leaves them alone. -/
theorem explains_act {s s' : ChannelStore} {call call' : ChannelCall} {request : ChannelRequest}
    (h : Explains request call) (hact : ChannelCall.act s call now = some (s', call')) :
    Explains request call' ∧
      ((∃ accountId fields merged groupDisabled, call = .upserting accountId fields merged groupDisabled) ∨
        ∀ other, (s'.current other).linkCols = (s.current other).linkCols) := by
  cases call with
  | checking accountId code unionId openId =>
    simp only [ChannelCall.act] at hact
    split at hact
    · cases hact
      exact ⟨trivial, Or.inr fun _ => rfl⟩
    · split at hact
      · rename_i haccepts
        cases hact
        have hrequest : request = .bindOwnerWithCode accountId code unionId openId := h
        subst hrequest
        refine ⟨⟨fun _ => rfl, fun _ entry hentry => ?_, fun _ _ _ _ heq => ?_⟩, Or.inr fun _ => rfl⟩
        · cases hentry
          rfl
        · cases heq
          exact accepts_nonempty haccepts
      · cases hact
        exact ⟨trivial, Or.inr fun _ => rfl⟩
  | writeDesired accountId fields =>
    cases hact
    exact ⟨h, Or.inr fun _ => rfl⟩
  | merging accountId fields groupDisabled =>
    simp only [ChannelCall.act] at hact
    split at hact
    · cases hact
      exact ⟨trivial, Or.inr fun _ => rfl⟩
    · cases hact
      exact ⟨h, Or.inr fun _ => rfl⟩
  | upserting accountId fields merged groupDisabled =>
    cases hact
    exact ⟨trivial, Or.inl ⟨accountId, fields, merged, groupDisabled, rfl⟩⟩
  | setting groupChatDisabled updatedBy =>
    simp only [ChannelCall.act] at hact
    split at hact
    · cases hact
      exact ⟨trivial, Or.inr fun _ => rfl⟩
    · cases hact
      refine ⟨?_, Or.inr fun _ => rfl⟩
      split <;> trivial
  | recomputing =>
    cases hact
    exact ⟨trivial, Or.inr fun _ => rfl⟩
  | listing groupDisabled =>
    cases hact
    exact ⟨trivial, Or.inr fun _ => rfl⟩
  | rewriting groupDisabled rest =>
    cases rest with
    | nil =>
      cases hact
      exact ⟨trivial, Or.inr fun _ => rfl⟩
    | cons row rest =>
      simp only [ChannelCall.act] at hact
      split at hact
      · split at hact
        · cases hact
          exact ⟨trivial, Or.inr fun _ => rfl⟩
        · rename_i hupsert
          cases hact
          exact ⟨trivial, Or.inr fun other => ChannelStore.linkCols_feishuUpsert_digest hupsert other⟩
      · cases hact
        exact ⟨trivial, Or.inr fun _ => rfl⟩
  | ended => cases hact

namespace OwnerLinks

variable {store : ChannelStore} {s s' : OwnerLinks} {event : ProcessEvent ChannelRequest Nat Empty}

/-- The columns of every account are what its history has left. -/
structure Inv (store : ChannelStore) (s : OwnerLinks) : Prop where
  length : s.requests.length = s.calls.procs.length
  explained : ∀ (i : Nat) call, s.calls.procs[i]? = some call →
    ∃ request, s.requests[i]? = some request ∧ Explains request call
  cols : ∀ accountId, (s.calls.shared.current accountId).linkCols =
    (s.ofAccount accountId).foldr LinkEvent.leaves (store.current accountId).linkCols

theorem Inv.start : Inv store (start store) where
  length := rfl
  explained := fun i call hcall => by cases hcall
  cols := fun _ => rfl

theorem step_eq_some (hs : s.step event = some s') :
    channelProgram.step s.calls event = some s'.calls ∧ s'.requests = s.asked event ∧
      s'.history = (s.happening event).toList ++ s.history := by
  obtain ⟨calls, hcalls, rfl⟩ := Option.map_eq_some_iff.mp hs
  exact ⟨hcalls, rfl, rfl⟩

theorem ofAccount_step (hs : s.step event = some s') (accountId : String) : s'.ofAccount accountId =
      ((s.happening event).toList.filterMap fun entry => if entry.1 = accountId then some entry.2 else none) ++
        s.ofAccount accountId := by
  rw [ofAccount, (step_eq_some hs).2.2, List.filterMap_append]
  rfl

theorem requestLeaves_eq (request : ChannelRequest) (now : Nat) (cols : LinkCols) :
    requestLeaves request cols = (((eventOf now request).toList.map Prod.snd).foldr LinkEvent.leaves cols) := by
  cases request <;> rfl

theorem Inv.cols_upsert (h : Inv store s) {i : Nat} {request : ChannelRequest} {accountId : String}
    {fields : FeishuFields} {merged : FeishuRow} {groupDisabled : Bool} {next : ChannelStore}
    (hcall : s.calls.procs[i]? = some (.upserting accountId fields merged groupDisabled))
    (hrequest : s.requests[i]? = some request) (hwrites : Writes request accountId fields)
    (hupsert : s.calls.shared.feishuUpsert accountId
      { fields with desiredDigest := some (digest merged.digestCols groupDisabled) } = some next)
    (hs : s.step (.advance i now) = some s') (hshared : s'.calls.shared = next) (other : String) :
    (s'.calls.shared.current other).linkCols =
      (s'.ofAccount other).foldr LinkEvent.leaves (store.current other).linkCols := by
  have hhappening : s.happening (.advance i now) = eventOf now request := by
    simp only [happening, hcall, hrequest, hupsert]
    rfl
  rw [ofAccount_step hs, List.foldr_append, ← h.cols, hhappening, hshared, ChannelStore.current_feishuUpsert hupsert]
  split
  · rename_i heq
    have hkeep : ((eventOf now request).toList.filterMap fun entry => if entry.1 = other then some entry.2 else none) =
        (eventOf now request).toList.map Prod.snd := by
      rw [← List.filterMap_eq_map]
      refine List.filterMap_congr fun entry hentry => ?_
      rw [if_pos ((hwrites.account now entry (Option.mem_toList.mp hentry)).trans heq)]
      rfl
    rw [hkeep, ← requestLeaves_eq, ← heq]
    exact hwrites.cols _
  · rename_i hne
    have hdrop : ((eventOf now request).toList.filterMap fun entry => if entry.1 = other then some entry.2 else none) =
        [] := by
      refine List.filterMap_eq_nil_iff.mpr fun entry hentry => if_neg ?_
      rw [hwrites.account now entry (Option.mem_toList.mp hentry)]
      exact hne
    rw [hdrop]
    rfl

theorem Inv.cols_same (h : Inv store s) (hs : s.step event = some s') (hhappening : s.happening event = none)
    {other : String} (hcols : (s'.calls.shared.current other).linkCols = (s.calls.shared.current other).linkCols) :
    (s'.calls.shared.current other).linkCols =
      (s'.ofAccount other).foldr LinkEvent.leaves (store.current other).linkCols := by
  rw [ofAccount_step hs, hhappening, hcols]
  exact h.cols other

theorem Inv.step (h : Inv store s) (hs : s.step event = some s') : Inv store s' := by
  obtain ⟨hcalls, hrequests, -⟩ := step_eq_some hs
  cases event with
  | spawn request =>
    have hshared : s'.calls = ⟨s.calls.shared, s.calls.procs ++ [ChannelCall.enter request]⟩ :=
      (Option.some.inj hcalls).symm
    refine ⟨?_, ?_, fun other => h.cols_same hs rfl (by rw [hshared])⟩
    · rw [hrequests, asked, hshared, List.length_append, List.length_append, h.length]
      rfl
    · intro i call hcall
      rw [hshared] at hcall
      rw [hrequests, asked]
      rcases Nat.lt_or_ge i s.calls.procs.length with hi | hi
      · rw [List.getElem?_append_left hi] at hcall
        rw [List.getElem?_append_left (by rw [h.length]; exact hi)]
        exact h.explained i call hcall
      · rw [List.getElem?_append_right hi] at hcall
        rw [List.getElem?_append_right (by rw [h.length]; exact hi), h.length]
        cases hindex : i - s.calls.procs.length with
        | zero =>
          rw [hindex] at hcall
          cases hcall
          exact ⟨request, rfl, explains_enter request⟩
        | succ n =>
          rw [hindex] at hcall
          cases hcall
  | advance i now =>
    obtain ⟨call, next, hcall, hact, hnext⟩ := Program.advance_eq_some hcalls
    obtain ⟨request, hrequest, hexplains⟩ := h.explained i call hcall
    obtain ⟨hexplains', hcols⟩ := explains_act hexplains hact
    have hshared : s'.calls.shared = next.1 := by rw [hnext]
    refine ⟨?_, ?_, fun other => ?_⟩
    · have hasked : s.asked (.advance i now) = s.requests := rfl
      rw [hrequests, hasked, hnext, List.length_set]
      exact h.length
    · intro j call' hcall'
      rw [hnext] at hcall'
      rw [hrequests]
      rcases Program.getElem?_set_cases hcall' with ⟨rfl, rfl⟩ | ⟨-, hold⟩
      · exact ⟨request, hrequest, hexplains'⟩
      · exact h.explained j call' hold
    · cases call with
      | upserting accountId fields merged groupDisabled =>
        cases hupsert : s.calls.shared.feishuUpsert accountId
            { fields with desiredDigest := some (digest merged.digestCols groupDisabled) } with
        | some written =>
          refine h.cols_upsert hcall hrequest hexplains hupsert hs ?_ other
          rw [hshared, ← Option.some.inj hact]
          simp only [hupsert]
          rfl
        | none =>
          refine h.cols_same hs ?_ ?_
          · simp only [happening, hcall, hrequest, hupsert]
            rfl
          · rw [hshared, ← Option.some.inj hact]
            simp only [hupsert]
            rfl
      | _ =>
        refine h.cols_same hs ?_ ?_
        · simp only [happening, hcall]
        · rw [hshared]
          rcases hcols with ⟨_, _, _, _, heq⟩ | hcols
          · cases heq
          · exact hcols other
  | outside event => cases event

theorem Inv.usable_iff (h : Inv store s) {accountId : String} (hstart : (store.current accountId).linkCodeHash = none)
    (hcode : code ≠ "") (hunion : unionId ≠ "") :
    Usable code now (s.ofAccount accountId) ↔
      (s.calls.shared.feishuGet accountId).any (accepts · code unionId now) = true := by
  have hcols := h.cols accountId
  have hrow : (s.calls.shared.feishuGet accountId).any (accepts · code unionId now) =
      accepts (s.calls.shared.current accountId) code unionId now := by
    rw [ChannelStore.current]
    cases s.calls.shared.feishuGet accountId with
    | none => simp [accepts]
    | some row => rfl
  rw [hrow, accepts_iff hcode hunion]
  have hhash := congrArg LinkCols.hash hcols
  have hexpires := congrArg LinkCols.expires hcols
  change (s.calls.shared.current accountId).linkCodeHash = _ at hhash
  change (s.calls.shared.current accountId).linkCodeExpiresAt = _ at hexpires
  rw [hhash, hexpires]
  match s.ofAccount accountId with
  | [] =>
    refine iff_of_false id ?_
    rintro ⟨hnone, -⟩
    rw [show (List.foldr LinkEvent.leaves (store.current accountId).linkCols []).hash = none from hstart] at hnone
    cases hnone
  | .minted issued expires :: earlier =>
    rw [Usable]
    change _ ↔ some (codeHash issued) = _ ∧ ∃ e, some expires = some e ∧ now ≤ e
    simp
  | .discarded :: earlier => exact iff_of_false id fun hnone => by cases hnone.1
  | .bound _ _ _ _ :: earlier => exact iff_of_false id fun hnone => by cases hnone.1

theorem Inv.owned (h : Inv store s) (accountId : String) : s.Owned accountId := by
  intro code unionId openId now earlier hhistory
  have hcols := h.cols accountId
  rw [hhistory] at hcols
  exact ⟨congrArg LinkCols.unionId hcols, congrArg LinkCols.openId hcols⟩

theorem Inv.happening_bound (h : Inv store s) {accountId openId : String}
    (hhappening : s.happening event = some (accountId, .bound code unionId openId now)) : code ≠ "" ∧ unionId ≠ "" := by
  unfold happening at hhappening
  split at hhappening
  · split at hhappening
    · rename_i i now' _ _ account fields merged groupDisabled request hcall hrequest
      obtain ⟨request', hrequest', hwrites⟩ := h.explained i _ hcall
      rw [hrequest] at hrequest'
      cases hrequest'
      simp only at hhappening
      split at hhappening
      · cases request with
        | bindOwnerWithCode account' code' unionId' openId' =>
          cases hhappening
          exact Writes.checked hwrites _ _ _ _ rfl
        | _ => cases hhappening
      · cases hhappening
    · cases hhappening
  · cases hhappening

theorem Inv.singleUse_step (h : Inv store s) (hstart : ∀ accountId, (store.current accountId).linkCodeHash = none)
    (hs : s.step event = some s') :
    (∀ accountId, SingleUse (s'.ofAccount accountId)) ↔
      (∀ accountId, SingleUse (s.ofAccount accountId)) ∧ s.StillValid event := by
  have hhistory := ofAccount_step hs
  unfold StillValid
  cases hhappening : s.happening event with
  | none =>
    have hsame : ∀ accountId, s'.ofAccount accountId = s.ofAccount accountId := by
      intro accountId
      rw [hhistory, hhappening]
      rfl
    simp only [hsame, and_true]
  | some entry =>
    obtain ⟨account, what⟩ := entry
    have hself : s'.ofAccount account = what :: s.ofAccount account := by
      rw [hhistory, hhappening]
      simp
    have hother : ∀ accountId, account ≠ accountId → s'.ofAccount accountId = s.ofAccount accountId := by
      intro accountId hne
      rw [hhistory, hhappening]
      simp [hne]
    -- the new event stands in front of the history of its own account
    have hsplit : (∀ accountId, SingleUse (s'.ofAccount accountId)) ↔
        SingleUse (what :: s.ofAccount account) ∧ ∀ accountId, account ≠ accountId → SingleUse (s.ofAccount accountId) := by
      constructor
      · exact fun hall => ⟨hself ▸ hall account, fun accountId hne => hother accountId hne ▸ hall accountId⟩
      · rintro ⟨hnew, hold⟩ accountId
        by_cases heq : account = accountId
        · rw [← heq, hself]
          exact hnew
        · rw [hother accountId heq]
          exact hold accountId heq
    have hjoin : (∀ accountId, SingleUse (s.ofAccount accountId)) ↔
        SingleUse (s.ofAccount account) ∧ ∀ accountId, account ≠ accountId → SingleUse (s.ofAccount accountId) := by
      refine ⟨fun hall => ⟨hall account, fun accountId _ => hall accountId⟩, ?_⟩
      rintro ⟨hown, hold⟩ accountId
      by_cases heq : account = accountId
      · exact heq ▸ hown
      · exact hold accountId heq
    rw [hsplit, hjoin]
    cases what with
    | minted code expires => exact (iff_of_eq (and_true _)).symm
    | discarded => exact (iff_of_eq (and_true _)).symm
    | bound code unionId openId now =>
      obtain ⟨hcode, hunion⟩ := h.happening_bound hhappening
      rw [SingleUse, h.usable_iff (hstart account) hcode hunion]
      exact and_assoc.trans and_comm

theorem Inv.singleUse_run (hstart : ∀ accountId, (store.current accountId).linkCodeHash = none)
    {events : List (ProcessEvent ChannelRequest Nat Empty)} (h : Inv store s)
    (hrun : run OwnerLinks.step s events = some s') :
    Inv store s' ∧ ((∀ accountId, SingleUse (s'.ofAccount accountId)) ↔
      (∀ accountId, SingleUse (s.ofAccount accountId)) ∧ RunMeets OwnerLinks.step StillValid s events) := by
  induction events generalizing s with
  | nil =>
    cases hrun
    exact ⟨h, (iff_of_eq (and_true _)).symm⟩
  | cons event events ih =>
    obtain ⟨mid, hmid, hrest⟩ := run_cons_eq_some.mp hrun
    obtain ⟨hinv, hiff⟩ := ih (h.step hmid) hrest
    refine ⟨hinv, ?_⟩
    rw [hiff, h.singleUse_step hstart hmid, runMeets_cons hmid]
    exact and_assoc

/-- From a store without codes, the codes are used once and the owner is the one who presented the code in
exactly those runs in which every bind that writes is still valid. -/
theorem singleUse_iff {events : List (ProcessEvent ChannelRequest Nat Empty)}
    (hstart : ∀ row ∈ store.rows.rows, row.linkCodeHash = none) (hrun : run step (start store) events = some s) :
    (∀ accountId, SingleUse (s.ofAccount accountId) ∧ s.Owned accountId) ↔
      RunMeets step StillValid (start store) events := by
  have hcurrent : ∀ accountId, (store.current accountId).linkCodeHash = none := by
    intro accountId
    unfold ChannelStore.current ChannelStore.feishuGet
    cases hrow : store.rows.find? accountId with
    | none => rfl
    | some row => exact hstart row (Table.mem_of_find? hrow)
  obtain ⟨hinv, hiff⟩ := Inv.start.singleUse_run hcurrent hrun
  have hempty : ∀ accountId, SingleUse ((start store).ofAccount accountId) := fun _ => trivial
  rw [forall_and, hiff]
  exact ⟨fun hall => hall.1.2, fun hmeets => ⟨⟨hempty, hmeets⟩, hinv.owned⟩⟩

def oneAccount : ChannelStore := { accounts := ["a"] }

def whole (i now : Nat) (request : ChannelRequest) (sections : Nat) : List (ProcessEvent ChannelRequest Nat Empty) :=
  .spawn request :: List.replicate sections (.advance i now)

def boundRun : List (ProcessEvent ChannelRequest Nat Empty) :=
  whole 0 0 (.createLinkCode "a" "K7QW2M" 600) 3 ++ whole 1 60 (.bindOwnerWithCode "a" " k7qw2m" "on_1" "ou_1") 4 ++
    whole 2 70 (.bindOwnerWithCode "a" "K7QW2M" "on_2" "ou_2") 1

theorem singleUse_boundRun : ∃ s, run step (start oneAccount) boundRun = some s ∧
    ∀ accountId, SingleUse (s.ofAccount accountId) ∧ s.Owned accountId := by
  obtain ⟨s, hrun, -⟩ := exists_run_of_map step (start oneAccount) boundRun (fun _ => true) (by decide +kernel)
  exact ⟨s, hrun, (singleUse_iff (fun _ hrow => by cases hrow) hrun).mpr (by decide +kernel)⟩

def racedRun : List (ProcessEvent ChannelRequest Nat Empty) :=
  whole 0 0 (.createLinkCode "a" "K7QW2M" 600) 3 ++ whole 1 60 (.bindOwnerWithCode "a" "K7QW2M" "on_1" "ou_1") 1 ++
    whole 2 60 (.bindOwnerWithCode "a" "K7QW2M" "on_2" "ou_2") 4 ++ List.replicate 3 (.advance 1 60)

/-- The user takes the code back while a sender presents it. -/
def discardedRun : List (ProcessEvent ChannelRequest Nat Empty) :=
  whole 0 0 (.createLinkCode "a" "K7QW2M" 600) 3 ++ whole 1 60 (.bindOwnerWithCode "a" "K7QW2M" "on_1" "ou_1") 1 ++
    whole 2 60 (.unbindOwner "a" "user") 3 ++ List.replicate 3 (.advance 1 60)

theorem not_singleUse : (∃ s, run step (start oneAccount) racedRun = some s ∧ ¬ SingleUse (s.ofAccount "a")) ∧
      ∃ s, run step (start oneAccount) discardedRun = some s ∧ ¬ SingleUse (s.ofAccount "a") := by
  constructor
  · exact exists_run_of_decide step (start oneAccount) racedRun (p := fun s => ¬ SingleUse (s.ofAccount "a"))
      (fun _ => id) (by decide +kernel)
  · exact exists_run_of_decide step (start oneAccount) discardedRun (p := fun s => ¬ SingleUse (s.ofAccount "a"))
      (fun _ => id) (by decide +kernel)

end OwnerLinks

end PrivaCloud.DataSpine
