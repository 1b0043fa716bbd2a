import PrivaCloud.ControlPanel.Steering

/-!
# Isolation of the tenants

A request that is let through is accepted by a pod of its own account, or of the one that an administrator has
named. A Runner sees to that itself; for Terminals it holds as long as no address is given to one while it
stands for another account.
-/

namespace PrivaCloud.ControlPanel

open Framework

structure Grant.Authorized (env : EdgeEnv) (request : EdgeRequest) (g : Grant) : Prop where
  active : g.user.status = .active
  provisioned : g.user.accountId ≠ ""
  target : ∀ target ∈ g.target, g.user.role = .admin ∧ request.target env = some target.username ∧
    target.status = .active ∧ target.accountId ≠ ""

/-- An account and an address that stands for its Terminal. -/
abbrev Claim : Type := String × String

def StatusWrite.claim (w : StatusWrite) : Option Claim :=
  match w.kind with
  | .terminal => w.status.endpoint.map (w.account, ·)
  | .runner => none

def WakeTask.claim (task : WakeTask) : Option Claim :=
  match task.kind, task.state with
  | .terminal, .done (some ip) => some (task.account, ip)
  | _, _ => none

def EdgeCall.claim : EdgeCall → Option Claim
  | .probing .terminal g ip | .steered .terminal g ip => some (g.account, ip)
  | _ => none

def Fits (pods : List (String × Pod)) (c : Claim) : Prop :=
  ∀ pod, getValue pods c.2 = some pod → pod.kind = .terminal → pod.account = c.1

section Fits

variable {pods : List (String × Pod)} {c : Claim} {ip : String}

theorem Fits.create {pod : Pod} (h : Fits pods c) (hfree : pod.kind = .terminal → c.2 = ip → c.1 = pod.account) :
    Fits ((ip, pod) :: pods) c := by
  intro pod' hpod hterminal
  simp only [getValue] at hpod
  split at hpod
  · rename_i heq
    cases hpod
    exact (hfree hterminal heq).symm
  · exact h pod' hpod hterminal

theorem Fits.delete (h : Fits pods c) : Fits (pods.filter (·.1 ≠ ip)) c := by
  intro pod hpod
  rw [getValue_filter_ne] at hpod
  split at hpod
  · cases hpod
  · exact h pod hpod

end Fits

/-- Every address that the cluster has published, is about to publish or has handed to a wake fits. -/
structure EdgeWorld.Consistent (s : EdgeWorld) : Prop where
  pinned : ∀ e ∈ s.pods, e.2.account ≠ ""
  statuses : ∀ w ∈ s.statuses, ∀ c ∈ w.claim, Fits s.pods c
  writes : ∀ w ∈ s.writes, ∀ c ∈ w.claim, Fits s.pods c
  wakes : ∀ task ∈ s.wakes, ∀ c ∈ task.claim, Fits s.pods c

def EdgeProcess.Knows (env : EdgeEnv) (s : EdgeWorld) (p : EdgeProcess) : Prop :=
  match p.call with
  | .authenticating _ | .findingKey | .actingAs | .ended _ _ => True
  | .targeting user name => user.status = .active ∧ user.accountId ≠ "" ∧ user.role = .admin ∧
      p.request.target env = some name
  | .checkingTerminal g | .resolving _ g => g.Authorized env p.request
  | .probing kind g ip | .steered kind g ip => g.Authorized env p.request ∧
      (kind = .terminal → Fits s.pods (g.account, ip))
  | .waiting kind g wake => g.Authorized env p.request ∧
      ∃ task, s.wakes[wake]? = some task ∧ task.kind = kind ∧ task.account = g.account
  | .accepted g pod => g.Authorized env p.request ∧ pod.account = g.account

abbrev EdgeState : Type := Processes EdgeWorld EdgeProcess

abbrev EdgeEvent : Type := ProcessEvent EdgeRequest EdgeAnswer EdgeOutside

/-- The addresses that stand for a Terminal. -/
def claims (s : EdgeState) : List Claim :=
  (s.shared.statuses ++ s.shared.writes).filterMap StatusWrite.claim ++
    s.shared.wakes.filterMap WakeTask.claim ++ s.procs.filterMap fun p => p.call.claim

/-- A Terminal gets no address that stands for another account: one that its status shows, that the
operator is about to write, or that a wake or a request has already read. -/
def Reserved (s : EdgeState) : EdgeEvent → Prop
  | .outside (.createPod ip pod) => pod.kind = .terminal → ∀ c ∈ claims s, c.2 = ip → c.1 = pod.account
  | _ => True

instance (s : EdgeState) (event : EdgeEvent) : Decidable (Reserved s event) := by
  cases event <;> dsimp only [Reserved] <;> first | infer_instance | (split <;> infer_instance)

/-- Only authorized requests are steered, and a pod accepts them only for its own account. -/
def Isolated (env : EdgeEnv) (s : EdgeState) : Prop :=
  ∀ p ∈ s.procs, match p.call with
    | .steered _ g _ => g.Authorized env p.request
    | .accepted g pod => g.Authorized env p.request ∧ pod.account = g.account
    | _ => True

section Act

variable {env : EdgeEnv} {s : EdgeWorld} {request : EdgeRequest}

theorem mem_claim_endpoint {w : StatusWrite} {ip : String} (hkind : w.kind = .terminal)
    (h : w.status.endpoint = some ip) : (w.account, ip) ∈ w.claim := by
  unfold StatusWrite.claim
  rw [hkind, h]
  rfl

theorem fits_of_status (h : s.Consistent) {account ip : String}
    (hip : (s.status .terminal account).endpoint = some ip) : Fits s.pods (account, ip) := by
  unfold EdgeWorld.status at hip
  cases hw : s.statuses.find? fun e => e.kind = .terminal ∧ e.account = account with
  | none =>
    rw [hw] at hip
    cases hip
  | some w =>
    rw [hw] at hip
    have hfound := List.find?_some hw
    simp only [decide_eq_true_eq] at hfound
    obtain ⟨hkind, rfl⟩ := hfound
    exact h.statuses w (List.mem_of_find?_eq_some hw) _ (mem_claim_endpoint hkind hip)

theorem knows_proceed {g : Grant} (h : g.Authorized env request) :
    EdgeProcess.Knows env s ⟨request, EdgeCall.proceed env request g⟩ := by
  unfold EdgeCall.proceed
  split
  · exact h
  · exact h

theorem knows_authorize (user : UserRecord) :
    EdgeProcess.Knows env s ⟨request, EdgeCall.authorize env request user⟩ := by
  unfold EdgeCall.authorize
  by_cases hid : user.accountId = ""
  · rw [if_pos hid]
    trivial
  · rw [if_neg hid]
    by_cases hactive : user.status ≠ .active
    · rw [if_pos hactive]
      trivial
    · rw [if_neg hactive]
      have hown : Grant.Authorized env request ⟨user, none⟩ :=
        ⟨not_not.mp hactive, hid, by rintro _ ⟨⟩⟩
      cases ht : request.target env with
      | none => exact knows_proceed hown
      | some name =>
        dsimp only
        split
        · exact knows_proceed hown
        · split
          · trivial
          · rename_i hadmin
            exact ⟨not_not.mp hactive, hid, not_not.mp hadmin, ht⟩

theorem knows_gate (user : UserRecord) : EdgeProcess.Knows env s ⟨request, EdgeCall.gate env request user⟩ := by
  unfold EdgeCall.gate
  split
  · trivial
  · exact knows_authorize user

theorem knows_enter (request : EdgeRequest) :
    EdgeProcess.Knows env s ⟨request, EdgeCall.enter env request⟩ := by
  unfold EdgeCall.enter
  split
  · trivial
  · split
    · trivial
    · split
      · trivial
      · trivial

/-- The pods stay, and so do the wakes. -/
structure EdgeWorld.Grows (s s' : EdgeWorld) : Prop where
  pods : s'.pods = s.pods
  wakes : ∀ (i : Nat) (task : WakeTask), s.wakes[i]? = some task →
    ∃ task' : WakeTask, s'.wakes[i]? = some task' ∧ task'.kind = task.kind ∧ task'.account = task.account

theorem EdgeWorld.Grows.refl (s : EdgeWorld) : s.Grows s := ⟨rfl, fun _ task h => ⟨task, h, rfl, rfl⟩⟩

theorem EdgeProcess.Knows.grows {s' : EdgeWorld} {p : EdgeProcess} (h : p.Knows env s) (hg : s.Grows s') :
    p.Knows env s' := by
  obtain ⟨request, call⟩ := p
  cases call with
  | probing kind g ip | steered kind g ip =>
    refine ⟨h.1, ?_⟩
    rw [hg.pods]
    exact h.2
  | waiting kind g wake =>
    obtain ⟨hg', task, htask, hkind, haccount⟩ := h
    obtain ⟨task', htask', hkind', haccount'⟩ := hg.wakes wake task htask
    exact ⟨hg', task', htask', hkind'.trans hkind, haccount'.trans haccount⟩
  | _ => exact h

theorem join_spec (h : s.Consistent) (kind : PodKind) (account : String) :
    (s.join kind account).1.Consistent ∧ s.Grows (s.join kind account).1 ∧
      ∃ task : WakeTask, (s.join kind account).1.wakes[(s.join kind account).2]? = some task ∧ task.kind = kind ∧
        task.account = account := by
  unfold EdgeWorld.join
  split
  · rename_i i hi
    refine ⟨h, EdgeWorld.Grows.refl s, ?_⟩
    obtain ⟨hlt, hfound, -⟩ := List.findIdx?_eq_some_iff_getElem.mp hi
    simp only [Bool.and_eq_true, decide_eq_true_eq] at hfound
    exact ⟨s.wakes[i], List.getElem?_eq_getElem hlt, hfound.1.1, hfound.1.2⟩
  · refine ⟨⟨h.pinned, h.statuses, h.writes, ?_⟩, ⟨rfl, ?_⟩, { kind := kind, account := account }, ?_, rfl, rfl⟩
    · intro task htask c hc
      rcases List.mem_append.mp htask with htask | htask
      · exact h.wakes task htask c hc
      · rw [List.mem_singleton.mp htask] at hc
        cases kind <;> cases hc
    · intro i task htask
      refine ⟨task, ?_, rfl, rfl⟩
      rw [List.getElem?_append_left (List.getElem?_eq_some_iff.mp htask).1]
      exact htask
    · simp

theorem act_quiet {call : EdgeCall} (hs : s.Consistent) (h : EdgeProcess.Knows env s ⟨request, call⟩) :
    s.Consistent ∧ EdgeProcess.Knows env s ⟨request, call⟩ ∧ s.Grows s := ⟨hs, h, EdgeWorld.Grows.refl s⟩

theorem act_wake {kind : PodKind} {g : Grant} (hs : s.Consistent) (hg : g.Authorized env request) :
    (EdgeCall.wake s kind g).1.Consistent ∧
      EdgeProcess.Knows env (EdgeCall.wake s kind g).1 ⟨request, (EdgeCall.wake s kind g).2⟩ ∧
        s.Grows (EdgeCall.wake s kind g).1 := by
  obtain ⟨hconsistent, hgrows, htask⟩ := join_spec hs kind g.account
  exact ⟨hconsistent, ⟨hg, htask⟩, hgrows⟩

theorem knows_arrive {kind : PodKind} {g : Grant} {ip : String} (hs : s.Consistent) (hg : g.Authorized env request)
    (hfits : kind = .terminal → Fits s.pods (g.account, ip)) (answer : EdgeAnswer) :
    EdgeProcess.Knows env s ⟨request, EdgeCall.arrive s kind g ip answer⟩ := by
  unfold EdgeCall.arrive
  split
  · trivial
  · rename_i pod hpod
    split
    · trivial
    · rename_i hkind
      cases kind with
      | terminal => exact ⟨hg, hfits rfl pod hpod (not_not.mp hkind)⟩
      | runner =>
        dsimp only
        split
        · trivial
        · split
          · rename_i haccepts
            refine ⟨hg, ?_⟩
            -- the Runner compares the account of the token with its own
            have hpinned := hs.pinned _ (getValue_mem hpod)
            by_contra hother
            have hrefused : EdgeCall.runnerAccepts s g pod = false :=
              if_pos ⟨hpinned, fun h => hother h.symm⟩
            rw [hrefused] at haccepts
            cases haccepts
          · trivial

theorem act_spec {call : EdgeCall} (hs : s.Consistent) (h : EdgeProcess.Knows env s ⟨request, call⟩)
    {answer : EdgeAnswer} {next : EdgeWorld × EdgeCall} (hact : call.act env request s answer = some next) :
    next.1.Consistent ∧ EdgeProcess.Knows env next.1 ⟨request, next.2⟩ ∧ s.Grows next.1 := by
  cases call with
  | authenticating payload =>
    simp only [EdgeCall.act] at hact
    split at hact
    · cases hact
      exact act_quiet hs trivial
    · split at hact
      · split at hact
        · cases hact
          exact act_quiet hs (knows_gate _)
        · cases hact
          exact act_quiet hs trivial
      · cases hact
        exact act_quiet hs trivial
  | findingKey =>
    simp only [EdgeCall.act] at hact
    split at hact
    · cases hact
      exact act_quiet hs (knows_gate _)
    · split at hact
      · cases hact
        exact act_quiet hs trivial
      · cases hact
        exact act_quiet hs trivial
  | actingAs =>
    simp only [EdgeCall.act] at hact
    split at hact
    · cases hact
      exact act_quiet hs trivial
    · split at hact
      · cases hact
        exact act_quiet hs (knows_authorize _)
      · cases hact
        exact act_quiet hs trivial
  | targeting user name =>
    obtain ⟨hactive, hid, hadmin, hnamed⟩ := h
    simp only [EdgeCall.act] at hact
    split at hact
    · cases hact
      exact act_quiet hs trivial
    · split at hact
      · cases hact
        exact act_quiet hs trivial
      · rename_i target htarget
        split at hact
        · cases hact
          exact act_quiet hs trivial
        · split at hact
          · cases hact
            exact act_quiet hs trivial
          · rename_i hprovisioned hfrozen
            cases hact
            refine act_quiet hs (knows_proceed ⟨hactive, hid, ?_⟩)
            rintro _ ⟨⟩
            rw [Accounts.getUser_username htarget]
            exact ⟨hadmin, hnamed, not_not.mp hfrozen, hprovisioned⟩
  | checkingTerminal g =>
    simp only [EdgeCall.act] at hact
    split at hact
    · cases hact
      exact act_quiet hs trivial
    · cases hact
      exact act_quiet hs h
  | resolving kind g =>
    simp only [EdgeCall.act] at hact
    split at hact
    · cases hact
      exact act_quiet hs trivial
    · split at hact
      · cases hact
        exact act_quiet hs trivial
      · split at hact
        · rename_i ip hip
          cases hact
          refine act_quiet hs ⟨h, ?_⟩
          rintro rfl
          exact fits_of_status hs hip
        · cases hact
          exact act_wake hs h
  | probing kind g ip =>
    simp only [EdgeCall.act] at hact
    split at hact
    · cases hact
      exact act_quiet hs h
    · cases hact
      exact act_wake hs h.1
  | waiting kind g wake =>
    obtain ⟨hg, task, htask, hkind, haccount⟩ := h
    simp only [EdgeCall.act, htask] at hact
    split at hact
    · rename_i ip hdone
      cases hact
      refine act_quiet hs ⟨hg, ?_⟩
      rintro rfl
      have hclaim : (task.account, ip) ∈ task.claim := by
        unfold WakeTask.claim
        rw [hkind, hdone]
        rfl
      rw [← haccount]
      exact hs.wakes task (List.mem_of_getElem? htask) _ hclaim
    · cases hact
      exact act_quiet hs trivial
    · cases hact
      exact act_quiet hs trivial
    · cases hact
    · cases hact
  | steered kind g ip =>
    cases hact
    exact act_quiet hs (knows_arrive hs h.1 h.2 answer)
  | accepted g pod => cases hact
  | ended code message => cases hact

end Act

section Outside

variable {env : EdgeEnv} {s s' : EdgeState}

theorem mem_claims_of_status {w : StatusWrite} (hw : w ∈ s.shared.statuses ∨ w ∈ s.shared.writes) {c : Claim}
    (hc : c ∈ w.claim) : c ∈ claims s := by
  refine List.mem_append_left _ (List.mem_append_left _ (List.mem_filterMap.mpr ⟨w, ?_, hc⟩))
  exact List.mem_append.mpr hw

theorem mem_claims_of_wake {task : WakeTask} (ht : task ∈ s.shared.wakes) {c : Claim} (hc : c ∈ task.claim) :
    c ∈ claims s :=
  List.mem_append_left _ (List.mem_append_right _ (List.mem_filterMap.mpr ⟨task, ht, hc⟩))

theorem mem_claims_of_proc {p : EdgeProcess} (hp : p ∈ s.procs) {c : Claim} (hc : c ∈ p.call.claim) :
    c ∈ claims s := List.mem_append_right _ (List.mem_filterMap.mpr ⟨p, hp, hc⟩)

theorem Consistent.repod (hi : Program.Holds EdgeWorld.Consistent (EdgeProcess.Knows env) s)
    (pods : List (String × Pod)) (hpinned : ∀ e ∈ pods, e.2.account ≠ "")
    (hfits : ∀ c ∈ claims s, Fits s.shared.pods c → Fits pods c) :
    EdgeWorld.Consistent { s.shared with pods := pods } ∧
      ∀ p ∈ s.procs, p.Knows env { s.shared with pods := pods } := by
  obtain ⟨hs, hprocs⟩ := hi
  refine ⟨⟨hpinned, ?_, ?_, ?_⟩, ?_⟩
  · exact fun w hw c hc => hfits c (mem_claims_of_status (.inl hw) hc) (hs.statuses w hw c hc)
  · exact fun w hw c hc => hfits c (mem_claims_of_status (.inr hw) hc) (hs.writes w hw c hc)
  · exact fun task ht c hc => hfits c (mem_claims_of_wake ht hc) (hs.wakes task ht c hc)
  · intro p hp
    have hknows := hprocs p hp
    have hclaim (c : Claim) (hc : c ∈ p.call.claim) := hfits c (mem_claims_of_proc hp hc)
    obtain ⟨request, call⟩ := p
    cases call with
    | probing kind g ip | steered kind g ip =>
      refine ⟨hknows.1, ?_⟩
      rintro rfl
      exact hclaim _ rfl (hknows.2 rfl)
    | _ => exact hknows

theorem fits_driveWake {s : EdgeWorld} (hs : s.Consistent) (task : WakeTask) (hclaim : ∀ c ∈ task.claim, Fits s.pods c)
    (answer : WakeAnswer) : ∀ c ∈ ({ task with state := s.driveWake task answer } : WakeTask).claim, Fits s.pods c := by
  obtain ⟨kind, account, state⟩ := task
  cases kind with
  | runner => rintro _ ⟨⟩
  | terminal =>
    cases state with
    | patching => cases answer <;> rintro _ ⟨⟩
    | polling =>
      cases answer with
      | ok =>
        intro c hc
        cases hip : (s.status .terminal account).endpoint with
        | none =>
          simp only [EdgeWorld.driveWake, hip] at hc
          cases hc
        | some ip =>
          simp only [EdgeWorld.driveWake, hip] at hc
          cases hc
          exact fits_of_status hs hip
      | _ => rintro _ ⟨⟩
    | done ip => exact hclaim
    | raised => rintro _ ⟨⟩

theorem outside_spec (hi : Program.Holds EdgeWorld.Consistent (EdgeProcess.Knows env) s) {event : EdgeOutside}
    (hc : Reserved s (.outside event)) {world : EdgeWorld} (ho : s.shared.outside event = some world) :
    world.Consistent ∧ ∀ p ∈ s.procs, p.Knows env s.shared → p.Knows env world := by
  have hs := hi.1
  cases event with
  | accounts users =>
    cases ho
    exact ⟨⟨hs.pinned, hs.statuses, hs.writes, hs.wakes⟩, fun p _ hp => hp.grows ⟨rfl, fun _ task h => ⟨task, h, rfl, rfl⟩⟩⟩
  | percent terminalPercent =>
    cases ho
    exact ⟨⟨hs.pinned, hs.statuses, hs.writes, hs.wakes⟩, fun p _ hp => hp.grows ⟨rfl, fun _ task h => ⟨task, h, rfl, rfl⟩⟩⟩
  | wake i answer =>
    simp only [EdgeWorld.outside] at ho
    split at ho
    · rename_i task htask
      split at ho <;> cases ho
      have hmem := List.mem_of_getElem? htask
      refine ⟨⟨hs.pinned, hs.statuses, hs.writes, ?_⟩, ?_⟩
      · intro task' htask'
        rcases Program.mem_set_cases htask' with rfl | htask'
        · exact fits_driveWake hs task (hs.wakes task hmem) answer
        · exact hs.wakes task' htask'
      · refine fun p _ hp => hp.grows ⟨rfl, ?_⟩
        intro j task' htask'
        by_cases hij : i = j
        · subst hij
          rw [htask] at htask'
          cases htask'
          refine ⟨_, List.getElem?_set_self (List.getElem?_eq_some_iff.mp htask).1, rfl, rfl⟩
        · exact ⟨task', by rw [List.getElem?_set_ne hij]; exact htask', rfl, rfl⟩
    · cases ho
  | observe write =>
    simp only [EdgeWorld.outside] at ho
    split at ho <;> cases ho
    rename_i hobserved
    refine ⟨⟨hs.pinned, hs.statuses, ?_, hs.wakes⟩, fun p _ hp => hp.grows ⟨rfl, fun _ task h => ⟨task, h, rfl, rfl⟩⟩⟩
    intro w hw c hclaim
    rcases List.mem_append.mp hw with hw | hw
    · exact hs.writes w hw c hclaim
    · rw [List.mem_singleton.mp hw] at hclaim
      unfold StatusWrite.claim at hclaim
      split at hclaim
      · obtain ⟨ip, hip, rfl⟩ := Option.map_eq_some_iff.mp hclaim
        intro pod hpod _
        rw [hobserved ip hip] at hpod
        cases hpod
        rfl
      · cases hclaim
  | publish i =>
    simp only [EdgeWorld.outside] at ho
    split at ho <;> cases ho
    rename_i write hwrite
    refine ⟨⟨hs.pinned, ?_, ?_, hs.wakes⟩, fun p _ hp => hp.grows ⟨rfl, fun _ task h => ⟨task, h, rfl, rfl⟩⟩⟩
    · intro w hw
      rcases List.mem_cons.mp hw with rfl | hw
      · exact hs.writes w (List.mem_of_getElem? hwrite)
      · exact hs.statuses w (List.mem_of_mem_filter hw)
    · exact fun w hw => hs.writes w (List.mem_of_mem_eraseIdx hw)
  | createPod ip pod =>
    simp only [EdgeWorld.outside] at ho
    split at ho <;> cases ho
    rename_i hfree
    obtain ⟨hconsistent, hprocs⟩ := Consistent.repod hi ((ip, pod) :: s.shared.pods)
      (by
        intro e he
        rcases List.mem_cons.mp he with rfl | he
        · exact hfree.2
        · exact hs.pinned e he)
      (fun c hclaim hfits => hfits.create fun hterminal hip => hc hterminal c hclaim hip)
    exact ⟨hconsistent, fun p hp _ => hprocs p hp⟩
  | deletePod ip =>
    cases ho
    obtain ⟨hconsistent, hprocs⟩ := Consistent.repod hi (s.shared.pods.filter (·.1 ≠ ip))
      (fun e he => hs.pinned e (List.mem_of_mem_filter he)) (fun _ _ hfits => hfits.delete)
    exact ⟨hconsistent, fun p hp _ => hprocs p hp⟩

end Outside

theorem steeringProgram_step {env : EdgeEnv} {s s' : EdgeState} {event : EdgeEvent}
    (hi : Program.Holds EdgeWorld.Consistent (EdgeProcess.Knows env) s) (hc : Reserved s event)
    (hs : (steeringProgram env).step s event = some s') :
    Program.Holds EdgeWorld.Consistent (EdgeProcess.Knows env) s' := by
  refine hi.step Reserved event hc ?_ ?_ ?_ hs
  · intro s request _ _
    exact knows_enter request
  · intro s i answer p next hi _ hp hact
    obtain ⟨⟨world, call⟩, hcall, rfl⟩ := Option.map_eq_some_iff.mp hact
    obtain ⟨hconsistent, hknows, hgrows⟩ := act_spec hi.1 (hi.2 p (List.mem_of_getElem? hp)) hcall
    exact ⟨hconsistent, hknows, fun _ _ _ _ hq => hq.grows hgrows⟩
  · intro s event world hi hc ho
    exact outside_spec hi hc ho

/-- In every run in which the Terminals get reserved addresses only, the tenants are isolated. -/
theorem isolated_of_reserved {env : EdgeEnv} {s s' : EdgeState} {events : List EdgeEvent} (hidle : s.procs = [])
    (hinit : s.shared.Consistent) (hm : RunMeets (steeringProgram env).step Reserved s events)
    (hrun : run (steeringProgram env).step s events = some s') : Isolated env s' := by
  have hstart : Program.Holds EdgeWorld.Consistent (EdgeProcess.Knows env) s := by
    refine ⟨hinit, ?_⟩
    rw [hidle]
    simp
  have hend := run_invariant (fun _ _ _ hi hc hs => steeringProgram_step hi hc hs) hstart hm hrun
  intro p hp
  have hknows := hend.2 p hp
  unfold EdgeProcess.Knows at hknows
  split
  · rename_i kind g ip hcall
    rw [hcall] at hknows
    exact hknows.1
  · rename_i g pod hcall
    rw [hcall] at hknows
    exact hknows
  · trivial

/-- Two tenants, of which the second is an administrator; both have an API key. -/
def twoTenants : Accounts where
  rows := [{ accountId := "A", username := ['a'], apiKey := some "sk-a".toList },
    { accountId := "B", username := ['b'], role := .admin, apiKey := some "sk-b".toList }]
  nodup := by decide

def plainEnv : EdgeEnv where
  decodeJwt := fun _ => none
  globalApiKey := []
  allowedWsOrigins := []
  decodeTarget := fun raw => if raw = "YQ".toList then some ['a'] else none
  urlPath := fun path => path.takeWhile (· ≠ '?')

/-- A request for the Terminal with an API key, and the protocols it offers. -/
def terminalRequest (key protocols : String) : EdgeRequest where
  header := fun name =>
    if name = ":path" then "/api/terminal".toList
    else if name = "authorization" then "Bearer ".toList ++ key.toList
    else if name = "sec-websocket-protocol" then protocols.toList
    else []

def edgeStart : EdgeState := ⟨{ users := twoTenants, terminalPercent := 20 }, []⟩

def terminalUp (account ip : String) : List EdgeEvent :=
  [.outside (.createPod ip ⟨.terminal, account⟩),
    .outside (.observe ⟨.terminal, account, { phase := "Running", podIp := some ip }⟩), .outside (.publish 0)]

/-- The administrator opens the Terminal of the other tenant; when its status has been cleared, its
address goes to a Terminal of the administrator. -/
def handedOver : List EdgeEvent :=
  terminalUp "A" "10.0.0.5" ++
    .spawn (terminalRequest "sk-b" "priva.ws.v1, priva.target.YQ") :: List.replicate 6 (.advance 0 {}) ++
    [.outside (.deletePod "10.0.0.5"), .outside (.observe ⟨.terminal, "A", { phase := "Zero" }⟩),
      .outside (.publish 0)] ++ terminalUp "B" "10.0.0.5"

def acceptedBy (account : String) (s : EdgeState) : Bool :=
  s.procs.any fun p => match p.call with
    | .accepted _ pod => pod.account = account
    | _ => false

theorem isolated_handedOver : (∃ s', run (steeringProgram plainEnv).step edgeStart handedOver = some s' ∧
      acceptedBy "A" s' = true) ∧
    RunMeets (steeringProgram plainEnv).step Reserved edgeStart handedOver ∧
    ∀ s', run (steeringProgram plainEnv).step edgeStart handedOver = some s' → Isolated plainEnv s' := by
  have hm : RunMeets (steeringProgram plainEnv).step Reserved edgeStart handedOver := by decide
  refine ⟨exists_run_of_map _ _ _ _ (by decide), hm, ?_⟩
  intro s' hrun
  exact isolated_of_reserved rfl ⟨by rintro _ ⟨⟩, by rintro _ ⟨⟩, by rintro _ ⟨⟩, by rintro _ ⟨⟩⟩ hm hrun

/-- The Terminal of a tenant is replaced by one of another tenant at its address, and the status still
shows the address. -/
def reusedAddress : List EdgeEvent :=
  terminalUp "A" "10.0.0.5" ++
    [.outside (.deletePod "10.0.0.5"), .outside (.createPod "10.0.0.5" ⟨.terminal, "B"⟩),
      .spawn (terminalRequest "sk-a" "")] ++ List.replicate 5 (.advance 0 {})

/-- A request of the first tenant has been accepted by a pod of the second. -/
def crossed (s : EdgeState) : Bool :=
  s.procs.any fun p => match p.call with
    | .accepted g pod => pod.account ≠ g.account
    | _ => false

theorem reusedAddress_not_isolated : ∃ s', run (steeringProgram plainEnv).step edgeStart reusedAddress = some s' ∧
    ¬ Isolated plainEnv s' := by
  obtain ⟨s', hrun, hcrossed⟩ := exists_run_of_map (steeringProgram plainEnv).step edgeStart reusedAddress crossed
    (by decide)
  refine ⟨s', hrun, ?_⟩
  intro hisolated
  obtain ⟨p, hp, hcall⟩ := List.any_eq_true.mp hcrossed
  have hp' := hisolated p hp
  split at hcall
  · rename_i g pod haccepted
    rw [haccepted] at hp'
    exact (of_decide_eq_true hcall) hp'.2
  · cases hcall

end PrivaCloud.ControlPanel
