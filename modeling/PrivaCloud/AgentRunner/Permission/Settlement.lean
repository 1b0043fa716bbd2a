import PrivaCloud.Framework.Run
import PrivaCloud.AgentRunner.Permission.Coordinator

/-!
# Permission requests from their creation to their result

One `PermissionCoordinator` with the calls of `request_permission`. The queue is not modelled: a `put` is over
at any time, or raises or is cancelled. A timeout that fires after `set_result` but before the callback runs
again cancels the callback, not the future.
-/

namespace PrivaCloud.AgentRunner

open Framework

/-- The arguments of `request_permission`. -/
structure RequestedTool (Input : Type) where
  toolUseId : Option String := none
  toolName : String
  input : Input
  risky : Bool := false
  matchedRule : Option String := none
  reason : Option String := none
  kind : String := "permission"

/-- `request_data` -/
structure PermissionRequest (Input : Type) extends RequestedTool Input where
  requestId : String
  sessionId : String

structure PermissionResponse (Input : Type) where
  decision : String
  message : String := ""
  updatedInput : Option Input := none

/-- The data of `permission_resolved`. -/
structure PermissionResolved (Input : Type) where
  requestId : String
  toolUseId : Option String
  toolName : Option String
  sessionId : String
  decision : String
  message : Option String
  updatedInput : Option Input

/-- A decision other than `"allow"` denies. -/
def decisionOf (decision : String) : Decision := if decision = "allow" then .allow else .deny

def PermissionResult.decision {Input : Type} : PermissionResult Input → Decision
  | .allow _ => .allow
  | .deny _ => .deny

/-- Where a call of `request_permission` is suspended, or how it ended. -/
inductive RequestPhase (Input : Type)
  | idle
  /-- awaiting the put of `permission_request`, which stands before the `try` -/
  | announcing
  | waiting
  /-- awaiting the put of `permission_timeout` -/
  | expiring
  | returned (result : PermissionResult Input)
  | raised

namespace RequestPhase

variable {Input : Type}

def live : RequestPhase Input → Bool
  | .announcing | .waiting | .expiring => true
  | .idle | .returned _ | .raised => false

def ended : RequestPhase Input → Bool
  | .returned _ | .raised => true
  | .idle | .announcing | .waiting | .expiring => false

end RequestPhase

/-- The coordinator, its calls, the `permission_resolved` events so far and what the callbacks got. -/
structure PermissionRequests (Input : Type) where
  sessionId : String := ""
  coordinator : PermissionCoordinator Input := {}
  pendingRequests : List (String × PermissionRequest Input) := []
  calls : String → RequestPhase Input := fun _ => .idle
  resolved : List (PermissionResolved Input) := []
  results : List (String × PermissionResult Input) := []

inductive RequestEvent (Input : Type)
  | request (requestId : String) (tool : RequestedTool Input)
  | announced (requestId : String)
  /-- the put of `permission_request` raises or is cancelled -/
  | putFailed (requestId : String)
  | resume (requestId : String)
  | expire (requestId : String)
  | expireSent (requestId : String)
  /-- the callback is cancelled in `wait_for`, or the put of `permission_timeout` raises or is cancelled -/
  | fail (requestId : String)
  | resolve (requestId : String) (response : PermissionResponse Input)
  | cancelAll
  | remap (sessionId : String)

namespace PermissionRequests

variable {Input : Type}

def setPhase (s : PermissionRequests Input) (requestId : String) (phase : RequestPhase Input) :
    PermissionRequests Input :=
  { s with calls := Function.update s.calls requestId phase }

/-- `request_permission` up to its first await. -/
def request (s : PermissionRequests Input) (requestId : String) (tool : RequestedTool Input) :
    PermissionRequests Input :=
  { s.setPhase requestId .announcing with
    coordinator := s.coordinator.createRequest requestId
    pendingRequests := s.pendingRequests ++
      [(requestId, { tool with requestId := requestId, sessionId := s.sessionId })] }

/-- The `finally` block. -/
def release (s : PermissionRequests Input) (requestId : String) : PermissionRequests Input :=
  { s with
    coordinator := s.coordinator.popRequest requestId
    pendingRequests := s.pendingRequests.filter (·.1 ≠ requestId) }

def deliver (s : PermissionRequests Input) (requestId : String) (result : PermissionResult Input) :
    PermissionRequests Input :=
  { (s.release requestId).setPhase requestId (.returned result) with
    results := s.results ++ [(requestId, result)] }

/-- What `wait_for` cancels: a future that has a result keeps it. -/
def cancelFuture (k : PermissionCoordinator Input) (requestId : String) : PermissionCoordinator Input :=
  match k.futures requestId with
  | .pending => k.setFuture requestId .cancelled
  | _ => k

/-- The data of the event that `resolve` emits. -/
def resolvedEvent (s : PermissionRequests Input) (requestId : String) (response : PermissionResponse Input) :
    PermissionResolved Input :=
  let data := (s.pendingRequests.find? (·.1 = requestId)).map (·.2)
  { requestId := requestId
    toolUseId := data.bind (·.toolUseId)
    toolName := data.map (·.toolName)
    sessionId := s.sessionId
    decision := response.decision
    message := if response.message = "" then none else some response.message
    updatedInput := response.updatedInput }

section Step

variable (isEmpty : Input → Bool)

/-- `resolve`; an unknown id raises. -/
def resolve (s : PermissionRequests Input) (requestId : String) (response : PermissionResponse Input) :
    PermissionRequests Input :=
  match s.coordinator.resolve requestId (decisionOf response.decision) response.message
      (response.updatedInput.filter fun input => !isEmpty input) with
  | .ok (true, coordinator) =>
    { s with coordinator := coordinator, resolved := s.resolved ++ [s.resolvedEvent requestId response] }
  | .ok (false, _) => s
  | .error _ => s

def step (s : PermissionRequests Input) : RequestEvent Input → Option (PermissionRequests Input)
  | .request requestId tool =>
    -- uuid4 never repeats an id
    match s.calls requestId with
    | .idle => some (s.request requestId tool)
    | _ => none
  | .announced requestId =>
    match s.calls requestId with
    | .announcing => some (s.setPhase requestId .waiting)
    | _ => none
  | .putFailed requestId =>
    match s.calls requestId with
    | .announcing => some (s.setPhase requestId .raised)
    | _ => none
  | .resume requestId =>
    match s.calls requestId, s.coordinator.futures requestId with
    | .waiting, .done result => some (s.deliver requestId result)
    | _, _ => none
  | .expire requestId =>
    match s.calls requestId with
    | .waiting => some
        { s.setPhase requestId .expiring with
          coordinator := (cancelFuture s.coordinator requestId).markSettled requestId .timeout }
    | _ => none
  | .expireSent requestId =>
    match s.calls requestId with
    | .expiring => some (s.deliver requestId (.deny "user did not answer"))
    | _ => none
  | .fail requestId =>
    match s.calls requestId with
    | .waiting => some
        (({ s with coordinator := cancelFuture s.coordinator requestId }.release requestId).setPhase
          requestId .raised)
    | .expiring => some ((s.release requestId).setPhase requestId .raised)
    | _ => none
  | .resolve requestId response => some (s.resolve isEmpty requestId response)
  | .cancelAll => some { s with coordinator := s.coordinator.cancelAll, pendingRequests := [] }
  | .remap sessionId => some { s with sessionId := sessionId }

end Step

/-- Each request is accepted once and each callback gets one result at most, which is what
`permission_resolved` said; a call that is over has left no entry. -/
structure Settled (s : PermissionRequests Input) : Prop where
  accepted : (s.resolved.map (·.requestId)).Nodup
  results : (s.results.map (·.1)).Nodup
  decided : ∀ event ∈ s.resolved, ∀ result, (event.requestId, result) ∈ s.results →
    result.decision = decisionOf event.decision
  clean : ∀ requestId, (s.calls requestId).ended = true →
    requestId ∉ s.coordinator.pending ∧ requestId ∉ s.pendingRequests.map (·.1)

/-- No put of a `permission_request` fails while the request is pending, and no timeout fires between an
allowing `resolve` and the callback. -/
def Careful (s : PermissionRequests Input) : RequestEvent Input → Bool
  | .putFailed requestId => requestId ∉ s.coordinator.pending
  | .expire requestId =>
    match s.coordinator.futures requestId with
    | .done (.allow _) => false
    | _ => true
  | _ => true

section Futures

open PermissionCoordinator

variable (k : PermissionCoordinator Input) (requestId : String)

@[simp] theorem markSettled_futures (state : SettledState) :
    (k.markSettled requestId state).futures = k.futures := by
  simp only [markSettled]

@[simp] theorem markSettled_pending (state : SettledState) :
    (k.markSettled requestId state).pending = k.pending := by
  simp only [markSettled]

@[simp] theorem popRequest_futures : (k.popRequest requestId).futures = k.futures := rfl

@[simp] theorem createRequest_pending : (k.createRequest requestId).pending = k.pending ++ [requestId] := rfl

@[simp] theorem cancelFuture_pending : (cancelFuture k requestId).pending = k.pending := by
  unfold cancelFuture
  split <;> rfl

private theorem cancelFuture_futures (other : String) : (cancelFuture k requestId).futures other = k.futures other ∨
      (other = requestId ∧ k.futures other = .pending ∧ (cancelFuture k requestId).futures other = .cancelled) := by
  unfold cancelFuture
  split
  · rename_i hpending
    by_cases hother : other = requestId
    · subst hother
      exact .inr ⟨rfl, hpending, by simp [PermissionCoordinator.setFuture]⟩
    · exact .inl (by simp [PermissionCoordinator.setFuture, hother])
  · exact .inl rfl

private theorem cancelFuture_self_ne_pending : (cancelFuture k requestId).futures requestId ≠ .pending := by
  unfold cancelFuture
  split
  · simp [PermissionCoordinator.setFuture]
  · rename_i hpending
    exact hpending

private theorem foldl_cancelRequest (keys : List String) (other : String) :
    (keys.foldl cancelRequest k).futures other = k.futures other ∨ (other ∈ keys ∧ k.futures other = .pending ∧
        (keys.foldl cancelRequest k).futures other = .done (.deny "Stream cancelled")) := by
  induction keys generalizing k with
  | nil => exact .inl rfl
  | cons key keys ih =>
    rw [List.foldl_cons]
    have hone : (k.cancelRequest key).futures other = k.futures other ∨
        (other = key ∧ k.futures other = .pending ∧
          (k.cancelRequest key).futures other = .done (.deny "Stream cancelled")) := by
      unfold cancelRequest
      split
      · rename_i hpending
        by_cases hother : other = key
        · subst hother
          exact .inr ⟨rfl, hpending, by simp [PermissionCoordinator.setFuture]⟩
        · exact .inl (by simp [PermissionCoordinator.setFuture, hother])
      · exact .inl rfl
    rcases ih (k.cancelRequest key) with hrest | ⟨hmem, hpending, hdone⟩
    · rcases hone with hone | ⟨rfl, hpending, hdone⟩
      · exact .inl (by rw [hrest, hone])
      · exact .inr ⟨List.mem_cons_self, hpending, by rw [hrest, hdone]⟩
    · rcases hone with hone | ⟨rfl, -, hdone'⟩
      · exact .inr ⟨List.mem_cons_of_mem _ hmem, by rw [← hone]; exact hpending, hdone⟩
      · rw [hdone'] at hpending
        cases hpending

private theorem cancelAll_futures (other : String) : k.cancelAll.futures other = k.futures other ∨
      (other ∈ k.pending ∧ k.futures other = .pending ∧
        k.cancelAll.futures other = .done (.deny "Stream cancelled")) :=
  foldl_cancelRequest k k.pending other

private theorem resolve_accepted {decision : Decision} {message : String} {updatedInput : Option Input}
    {k' : PermissionCoordinator Input} (h : k.resolve requestId decision message updatedInput = .ok (true, k')) :
    requestId ∈ k.pending ∧ k.futures requestId = .pending ∧ k'.pending = k.pending ∧
      k'.futures = Function.update k.futures requestId (.done (answer decision message updatedInput)) := by
  unfold PermissionCoordinator.resolve at h
  split at h
  · rename_i hmem hpending
    cases h
    refine ⟨by simpa using hmem, hpending, ?_, ?_⟩
    · simp only [PermissionCoordinator.setFuture, markSettled_pending]
    · simp only [PermissionCoordinator.setFuture, markSettled_futures]
  · split at h <;> cases h

end Futures

/-- The calls whose entry is still there are not over; the futures tell what was accepted and what the
callbacks get. -/
structure Inv (s : PermissionRequests Input) : Prop where
  keys : s.pendingRequests.map (·.1) = s.coordinator.pending
  live : ∀ requestId ∈ s.coordinator.pending, (s.calls requestId).live = true
  fresh : ∀ requestId, s.calls requestId = .idle → s.coordinator.futures requestId = .absent
  resolved : ∀ event ∈ s.resolved, ∃ result, s.coordinator.futures event.requestId = .done result ∧
    result.decision = decisionOf event.decision
  accepted : (s.resolved.map (·.requestId)).Nodup
  results : ∀ p ∈ s.results, s.calls p.1 = .returned p.2
  once : (s.results.map (·.1)).Nodup
  expiring : ∀ requestId, s.calls requestId = .expiring → s.coordinator.futures requestId ≠ .pending ∧
    ∀ updatedInput, s.coordinator.futures requestId ≠ .done (.allow updatedInput)
  returned : ∀ requestId result, s.calls requestId = .returned result → ∀ result',
    s.coordinator.futures requestId = .done result' → result.decision = result'.decision

variable {s : PermissionRequests Input}

namespace Inv

private theorem init : Inv ({} : PermissionRequests Input) where
  keys := rfl
  live _ h := by cases h
  fresh _ _ := rfl
  resolved _ h := by cases h
  accepted := List.nodup_nil
  results _ h := by cases h
  once := List.nodup_nil
  expiring _ h := by cases h
  returned _ _ h := by cases h

private theorem settled (h : Inv s) : Settled s where
  accepted := h.accepted
  results := h.once
  decided event hevent result hresult := by
    obtain ⟨result', hdone, hdecision⟩ := h.resolved event hevent
    rw [h.returned event.requestId result (h.results _ hresult) result' hdone, hdecision]
  clean requestId hended := by
    have hpending : requestId ∉ s.coordinator.pending := by
      intro hmem
      have hlive := h.live requestId hmem
      cases hphase : s.calls requestId with
      | announcing | waiting | expiring => simp [hphase, RequestPhase.ended] at hended
      | idle | returned | raised => simp [hphase, RequestPhase.live] at hlive
    exact ⟨hpending, by rw [h.keys]; exact hpending⟩

/-- A call moves on: its own future may have been cancelled, and it may have got a result. -/
theorem moved {s' : PermissionRequests Input} (h : Inv s) {requestId : String} {phase : RequestPhase Input}
    (hlive : (s.calls requestId).live = true) (hcalls : s'.calls = Function.update s.calls requestId phase)
    (hidle : phase ≠ .idle) (hkeys : s'.pendingRequests.map (·.1) = s'.coordinator.pending)
    (hpending : ∀ other ∈ s'.coordinator.pending,
      other ∈ s.coordinator.pending ∧ (other = requestId → phase.live = true))
    (hfutures : ∀ other, s'.coordinator.futures other = s.coordinator.futures other ∨
      (other = requestId ∧ s.coordinator.futures other = .pending ∧ s'.coordinator.futures other = .cancelled))
    (hresolved : s'.resolved = s.resolved)
    (hresults : s'.results = s.results ∨
      ∃ result, phase = .returned result ∧ s'.results = s.results ++ [(requestId, result)])
    (hexpiring : phase = .expiring → s'.coordinator.futures requestId ≠ .pending ∧
      ∀ updatedInput, s'.coordinator.futures requestId ≠ .done (.allow updatedInput))
    (hreturned : ∀ result, phase = .returned result → ∀ result', s'.coordinator.futures requestId = .done result' →
      result.decision = result'.decision) : Inv s' := by
  have hself : s'.calls requestId = phase := by rw [hcalls, Function.update_self]
  have hothers : ∀ other, other ≠ requestId → s'.calls other = s.calls other := fun other hne => by
    rw [hcalls, Function.update_of_ne hne]
  have hfuture : ∀ other, other ≠ requestId → s'.coordinator.futures other = s.coordinator.futures other := by
    intro other hne
    rcases hfutures other with hsame | ⟨rfl, -⟩
    · exact hsame
    · exact absurd rfl hne
  have hdone : ∀ other result, s.coordinator.futures other = .done result →
      s'.coordinator.futures other = .done result := by
    intro other result hdone
    rcases hfutures other with hsame | ⟨-, hpending, -⟩
    · rw [hsame, hdone]
    · rw [hdone] at hpending
      cases hpending
  have hmem : ∀ p ∈ s.results, p.1 ≠ requestId := by
    rintro p hp rfl
    rw [h.results p hp] at hlive
    cases hlive
  refine ⟨hkeys, ?_, ?_, ?_, by rw [hresolved]; exact h.accepted, ?_, ?_, ?_, ?_⟩
  · intro other hother
    obtain ⟨hold, hphase⟩ := hpending other hother
    by_cases hne : other = requestId
    · rw [hne, hself]
      exact hphase hne
    · rw [hothers other hne]
      exact h.live other hold
  · intro other hother
    by_cases hne : other = requestId
    · rw [hne, hself] at hother
      exact absurd hother hidle
    · rw [hothers other hne] at hother
      rw [hfuture other hne]
      exact h.fresh other hother
  · rw [hresolved]
    intro event hevent
    obtain ⟨result, hresult, hdecision⟩ := h.resolved event hevent
    exact ⟨result, hdone _ _ hresult, hdecision⟩
  · intro p hp
    rcases hresults with hsame | ⟨result, rfl, hnew⟩
    · rw [hsame] at hp
      rw [hothers _ (hmem p hp)]
      exact h.results p hp
    · rw [hnew] at hp
      rcases List.mem_append.mp hp with hp | hp
      · rw [hothers _ (hmem p hp)]
        exact h.results p hp
      · rw [List.mem_singleton.mp hp]
        exact hself
  · rcases hresults with hsame | ⟨result, -, hnew⟩
    · rw [hsame]
      exact h.once
    · rw [hnew, List.map_append, List.nodup_append]
      refine ⟨h.once, by simp, ?_⟩
      intro other hother other' hother'
      obtain ⟨p, hp, rfl⟩ := List.mem_map.mp hother
      rw [List.map_singleton, List.mem_singleton] at hother'
      rw [hother']
      exact hmem p hp
  · intro other hother
    by_cases hne : other = requestId
    · rw [hne] at hother ⊢
      exact hexpiring (hself.symm.trans hother)
    · rw [hothers other hne] at hother
      rw [hfuture other hne]
      exact h.expiring other hother
  · intro other result hother result' hresult'
    by_cases hne : other = requestId
    · rw [hne] at hother hresult'
      exact hreturned result (hself.symm.trans hother) result' hresult'
    · rw [hothers other hne] at hother
      rw [hfuture other hne] at hresult'
      exact h.returned other result hother result' hresult'

private theorem pending_release (h : Inv s) (requestId : String) :
    (s.release requestId).pendingRequests.map (·.1) = (s.release requestId).coordinator.pending ∧
      ∀ other ∈ (s.release requestId).coordinator.pending, other ∈ s.coordinator.pending ∧ other ≠ requestId := by
  have hpending : (s.release requestId).coordinator.pending = s.coordinator.pending.filter (· ≠ requestId) := rfl
  constructor
  · rw [hpending, ← h.keys, List.filter_map]
    rfl
  · intro other hother
    rw [hpending, List.mem_filter] at hother
    exact ⟨hother.1, by simpa using hother.2⟩

private theorem deliver (h : Inv s) {requestId : String} {result : PermissionResult Input}
    (hlive : (s.calls requestId).live = true)
    (hresult : ∀ result', s.coordinator.futures requestId = .done result' → result.decision = result'.decision) :
    Inv (s.deliver requestId result) := by
  obtain ⟨hkeys, hpending⟩ := h.pending_release requestId
  refine h.moved hlive rfl (by simp) hkeys ?_ (fun _ => .inl rfl) rfl (.inr ⟨result, rfl, rfl⟩)
    (fun h => by cases h) ?_
  · exact fun other hother => ⟨(hpending other hother).1, fun hself => absurd hself (hpending other hother).2⟩
  · intro result' hphase
    cases hphase
    exact hresult

private theorem request (h : Inv s) {requestId : String} (tool : RequestedTool Input)
    (hidle : s.calls requestId = .idle) : Inv (s.request requestId tool) := by
  have habsent := h.fresh requestId hidle
  have hothers : ∀ other, other ≠ requestId → (s.request requestId tool).calls other = s.calls other :=
    fun other hne => Function.update_of_ne hne _ _
  have hself : (s.request requestId tool).calls requestId = .announcing := Function.update_self ..
  have hfuture : ∀ other, other ≠ requestId →
      (s.request requestId tool).coordinator.futures other = s.coordinator.futures other :=
    fun other hne => Function.update_of_ne hne _ _
  refine ⟨?_, ?_, ?_, ?_, h.accepted, ?_, h.once, ?_, ?_⟩
  · simp only [PermissionRequests.request, createRequest_pending, List.map_append, h.keys, List.map_cons, List.map_nil]
  · intro other hother
    by_cases hne : other = requestId
    · rw [hne, hself]
      rfl
    · rw [hothers other hne]
      rcases List.mem_append.mp hother with hother | hother
      · exact h.live other hother
      · exact absurd (List.mem_singleton.mp hother) hne
  · intro other hother
    by_cases hne : other = requestId
    · rw [hne, hself] at hother
      cases hother
    · rw [hothers other hne] at hother
      rw [hfuture other hne]
      exact h.fresh other hother
  · intro event hevent
    obtain ⟨result, hresult, hdecision⟩ := h.resolved event hevent
    have hne : event.requestId ≠ requestId := by
      intro heq
      rw [heq, habsent] at hresult
      cases hresult
    exact ⟨result, by rw [hfuture _ hne, hresult], hdecision⟩
  · intro p hp
    have hne : p.1 ≠ requestId := by
      intro heq
      have hreturned := h.results p hp
      rw [heq, hidle] at hreturned
      cases hreturned
    rw [hothers _ hne]
    exact h.results p hp
  · intro other hother
    by_cases hne : other = requestId
    · rw [hne, hself] at hother
      cases hother
    · rw [hothers other hne] at hother
      rw [hfuture other hne]
      exact h.expiring other hother
  · intro other result hother result' hresult'
    by_cases hne : other = requestId
    · rw [hne, hself] at hother
      cases hother
    · rw [hothers other hne] at hother
      rw [hfuture other hne] at hresult'
      exact h.returned other result hother result' hresult'

private theorem resolve {isEmpty : Input → Bool} (h : Inv s) (requestId : String)
    (response : PermissionResponse Input) : Inv (s.resolve isEmpty requestId response) := by
  unfold PermissionRequests.resolve
  split
  · rename_i coordinator hresolve
    obtain ⟨hmem, hpending, hkeys, hfutures⟩ := resolve_accepted _ _ hresolve
    have hlive := h.live requestId hmem
    have hfuture : ∀ other, other ≠ requestId → coordinator.futures other = s.coordinator.futures other := by
      intro other hne
      rw [hfutures, Function.update_of_ne hne]
    refine ⟨by rw [hkeys]; exact h.keys, by rw [hkeys]; exact h.live, ?_, ?_, ?_, h.results, h.once, ?_, ?_⟩
    · intro other hother
      have hne : other ≠ requestId := by
        rintro rfl
        rw [hother] at hlive
        cases hlive
      rw [hfuture other hne]
      exact h.fresh other hother
    · intro event hevent
      rcases List.mem_append.mp hevent with hevent | hevent
      · obtain ⟨result, hresult, hdecision⟩ := h.resolved event hevent
        have hne : event.requestId ≠ requestId := by
          intro heq
          rw [heq, hpending] at hresult
          cases hresult
        exact ⟨result, by rw [hfuture _ hne, hresult], hdecision⟩
      · rw [List.mem_singleton.mp hevent]
        refine ⟨_, by rw [hfutures]; exact Function.update_self .., ?_⟩
        simp only [resolvedEvent]
        cases decisionOf response.decision <;> rfl
    · rw [List.map_append, List.nodup_append]
      refine ⟨h.accepted, by simp, ?_⟩
      intro other hother other' hother'
      obtain ⟨event, hevent, rfl⟩ := List.mem_map.mp hother
      rw [List.map_singleton, List.mem_singleton] at hother'
      rw [hother']
      intro heq
      obtain ⟨result, hresult, -⟩ := h.resolved event hevent
      rw [heq] at hresult
      change s.coordinator.futures requestId = _ at hresult
      rw [hpending] at hresult
      cases hresult
    · intro other hother
      have hne : other ≠ requestId := by
        rintro rfl
        exact (h.expiring other hother).1 hpending
      rw [hfuture other hne]
      exact h.expiring other hother
    · intro other result hother result' hresult'
      have hne : other ≠ requestId := by
        rintro rfl
        rw [hother] at hlive
        cases hlive
      rw [hfuture other hne] at hresult'
      exact h.returned other result hother result' hresult'
  · exact h
  · exact h

private theorem cancelAll (h : Inv s) :
    Inv { s with coordinator := s.coordinator.cancelAll, pendingRequests := [] } := by
  have hfuture : ∀ other, (s.calls other).live = false →
      s.coordinator.cancelAll.futures other = s.coordinator.futures other := by
    intro other hdead
    rcases cancelAll_futures s.coordinator other with hsame | ⟨hmem, -⟩
    · exact hsame
    · rw [h.live other hmem] at hdead
      cases hdead
  refine ⟨rfl, fun _ hother => (by cases hother), ?_, ?_, h.accepted, h.results, h.once, ?_, ?_⟩
  · intro other hother
    change s.calls other = .idle at hother
    rw [hfuture other (by rw [hother]; rfl)]
    exact h.fresh other hother
  · intro event hevent
    obtain ⟨result, hresult, hdecision⟩ := h.resolved event hevent
    rcases cancelAll_futures s.coordinator event.requestId with hsame | ⟨-, hpending, -⟩
    · exact ⟨result, by rw [hsame, hresult], hdecision⟩
    · rw [hresult] at hpending
      cases hpending
  · intro other hother
    obtain ⟨hpending, hallow⟩ := h.expiring other hother
    rcases cancelAll_futures s.coordinator other with hsame | ⟨-, hpending', -⟩
    · rw [hsame]
      exact ⟨hpending, hallow⟩
    · exact absurd hpending' hpending
  · intro other result hother result' hresult'
    change s.calls other = .returned result at hother
    rw [hfuture other (by rw [hother]; rfl)] at hresult'
    exact h.returned other result hother result' hresult'

end Inv

private theorem Inv.step {isEmpty : Input → Bool} {s' : PermissionRequests Input} {e : RequestEvent Input} (h : Inv s)
    (hcareful : Careful s e = true) (hs : step isEmpty s e = some s') : Inv s' := by
  cases e with
  | request requestId tool =>
    simp only [PermissionRequests.step] at hs
    split at hs <;> cases hs
    rename_i hidle
    exact h.request tool hidle
  | announced requestId =>
    simp only [PermissionRequests.step] at hs
    split at hs <;> cases hs
    rename_i hphase
    exact h.moved (by rw [hphase]; rfl) rfl (by simp) h.keys (fun _ hother => ⟨hother, fun _ => rfl⟩)
      (fun _ => .inl rfl) rfl (.inl rfl) (fun h => by cases h) (fun _ h => by cases h)
  | putFailed requestId =>
    have hgone : requestId ∉ s.coordinator.pending := by simpa [Careful] using hcareful
    simp only [PermissionRequests.step] at hs
    split at hs <;> cases hs
    rename_i hphase
    refine h.moved (by rw [hphase]; rfl) rfl (by simp) h.keys ?_ (fun _ => .inl rfl) rfl (.inl rfl)
      (fun h => by cases h) (fun _ h => by cases h)
    rintro other hother
    exact ⟨hother, fun heq => absurd (heq ▸ hother) hgone⟩
  | resume requestId =>
    simp only [PermissionRequests.step] at hs
    split at hs <;> cases hs
    rename_i result hphase hdone
    refine h.deliver (by rw [hphase]; rfl) ?_
    intro result' hdone'
    rw [hdone] at hdone'
    cases hdone'
    rfl
  | expire requestId =>
    simp only [PermissionRequests.step] at hs
    split at hs <;> cases hs
    rename_i hphase
    refine h.moved (by rw [hphase]; rfl) rfl (by simp) ?_ ?_ ?_ rfl (.inl rfl) ?_ (fun _ h => by cases h)
    · rw [markSettled_pending, cancelFuture_pending]
      exact h.keys
    · intro other hother
      rw [markSettled_pending, cancelFuture_pending] at hother
      exact ⟨hother, fun _ => rfl⟩
    · intro other
      rw [markSettled_futures]
      exact cancelFuture_futures s.coordinator requestId other
    · intro _
      rw [markSettled_futures]
      refine ⟨cancelFuture_self_ne_pending s.coordinator requestId, ?_⟩
      intro updatedInput hallow
      rcases cancelFuture_futures s.coordinator requestId requestId with hsame | ⟨-, -, hcancelled⟩
      · rw [hsame] at hallow
        simp [Careful, hallow] at hcareful
      · rw [hcancelled] at hallow
        cases hallow
  | expireSent requestId =>
    simp only [PermissionRequests.step] at hs
    split at hs <;> cases hs
    rename_i hphase
    refine h.deliver (by rw [hphase]; rfl) ?_
    intro result' hdone
    cases result' with
    | allow updatedInput => exact absurd hdone ((h.expiring requestId hphase).2 updatedInput)
    | deny => rfl
  | fail requestId =>
    simp only [PermissionRequests.step] at hs
    split at hs
    · rename_i hphase
      cases hs
      obtain ⟨hkeys, hpending⟩ := h.pending_release requestId
      have hsame : ((cancelFuture s.coordinator requestId).popRequest requestId).pending =
          (s.coordinator.popRequest requestId).pending := by
        simp only [PermissionCoordinator.popRequest, cancelFuture_pending]
      refine h.moved (by rw [hphase]; rfl) rfl (by simp) (hkeys.trans hsame.symm) ?_ ?_ rfl (.inl rfl)
        (fun h => by cases h) (fun _ h => by cases h)
      · intro other hother
        have hother' : other ∈ (s.release requestId).coordinator.pending := hsame ▸ hother
        exact ⟨(hpending other hother').1, fun hself => absurd hself (hpending other hother').2⟩
      · exact cancelFuture_futures s.coordinator requestId
    · rename_i hphase
      cases hs
      obtain ⟨hkeys, hpending⟩ := h.pending_release requestId
      refine h.moved (by rw [hphase]; rfl) rfl (by simp) hkeys ?_ (fun _ => .inl rfl) rfl (.inl rfl)
        (fun h => by cases h) (fun _ h => by cases h)
      exact fun other hother => ⟨(hpending other hother).1, fun hself => absurd hself (hpending other hother).2⟩
    · cases hs
  | resolve requestId response =>
    cases hs
    exact h.resolve requestId response
  | cancelAll =>
    cases hs
    exact h.cancelAll
  | remap sessionId =>
    cases hs
    exact ⟨h.keys, h.live, h.fresh, h.resolved, h.accepted, h.results, h.once, h.expiring, h.returned⟩

/-- In a careful run every request is settled once and leaves nothing behind. -/
theorem settled_of_careful (isEmpty : Input → Bool) {es : List (RequestEvent Input)} {s : PermissionRequests Input}
    (hm : RunMeets (step isEmpty) (fun s e => Careful s e = true) {} es) (hr : run (step isEmpty) {} es = some s) :
    Settled s :=
  (run_invariant (fun _ _ _ hi hc hs => hi.step hc hs) Inv.init hm hr).settled

/-- Two tabs answer one request, another one times out, and the stream is cancelled while a third one is
being announced. -/
def orderlyRequests : List (RequestEvent Nat) :=
  [.request "a" { toolName := "Bash", input := 1 }, .announced "a",
    .resolve "a" { decision := "allow", updatedInput := some 2 }, .resolve "a" { decision := "deny" }, .resume "a",
    .request "b" { toolName := "Write", input := 3 }, .announced "b", .expire "b",
    .resolve "b" { decision := "allow" }, .expireSent "b",
    .request "c" { toolName := "Bash", input := 4 }, .cancelAll, .putFailed "c"]

theorem settled_orderlyRequests :
    ∃ s, run (step (fun _ : Nat => false)) {} orderlyRequests = some s ∧ Settled s := by
  obtain ⟨s, hr⟩ := Option.isSome_iff_exists.mp
    (show (run (step (fun _ : Nat => false)) {} orderlyRequests).isSome by decide)
  exact ⟨s, hr, settled_of_careful (fun _ => false) (by decide) hr⟩

/-- The put of the event raises: the call is over and its entries stay. -/
theorem not_settled_putFailed : ∃ s, run (step (fun _ : Nat => false)) {}
    [.request "a" { toolName := "Bash", input := 1 }, .putFailed "a"] = some s ∧ ¬ Settled s := by
  refine exists_run_of_decide _ _ _ ?_ (show (run (step (fun _ : Nat => false)) {}
    [.request "a" { toolName := "Bash", input := 1 }, .putFailed "a"]).map
      (fun s => decide ("a" ∈ s.coordinator.pending ∧ (s.calls "a").ended = true)) = some true by decide)
  rintro s ⟨hpending, hended⟩ hsettled
  exact (hsettled.clean "a" hended).1 hpending

end PermissionRequests

end PrivaCloud.AgentRunner
