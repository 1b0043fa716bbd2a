import PrivaCloud.AgentRunner.Pool.Ownership

/-!
# The receiver of a resident does not end unnoticed

A retirement is scheduled only for a resident, and a runtime becomes resident after its turn has started. The
last test of `start_turn` covers the time in between: a receiver that has ended leaves the runtime dead.
-/

namespace PrivaCloud.AgentRunner

open Framework

namespace SessionRuntime

/-- The close has gone through its first section. -/
def closeBegun (v : SessionRuntime) : Bool := v.closeTask ≠ .absent && v.closeTask ≠ .scheduled

theorem not_closeBegun {v : SessionRuntime} (h : v.closeTask = .absent) : ¬ v.closeBegun = true := by
  simp [closeBegun, h]

/-- A resident whose receiver has ended is retired or closed, and for no other reason. -/
structure Tended (v : SessionRuntime) : Prop where
  dead : v.state = .dead → v.healthyFlag = false
  ended : v.resident = true → v.receiver = .ended →
    (v.state = .dead ∨ v.state = .closing) ∧ v.healthyFlag = false ∧
      (v.retireTask = .scheduled ∨ v.closeTask ≠ .absent)
  reading : v.resident = true → v.receiver ≠ .ended →
    v.closeTask = .absent ∧ v.retireTask = .absent ∧ v.state ≠ .closing
  closed : v.resident = true → v.closeTask = .done → v.activeQueue = none

/-- Only its maker knows the runtime. -/
structure Fresh (v : SessionRuntime) : Prop where
  resident : v.resident = false
  closeTask : v.closeTask = .absent
  retireTask : v.retireTask = .absent
  activeQueue : v.activeQueue = none
  state : v.state ≠ .closing
  ended : v.receiver = .ended → v.state = .dead

variable {v v' : SessionRuntime} {e : RuntimeEvent}

theorem tended_of_absent (hr : v.resident = false) (hd : v.state = .dead → v.healthyFlag = false) :
    v.Tended := by
  have habsent : v.resident ≠ true := by simp [hr]
  exact ⟨hd, fun h => absurd h habsent, fun h => absurd h habsent, fun h => absurd h habsent⟩

theorem Tended.same (h : v.Tended) (hs : v'.state = v.state)
    (hf : v'.healthyFlag = v.healthyFlag) (hr : v'.resident = v.resident)
    (hv : v'.receiver = v.receiver) (hc : v'.closeTask = v.closeTask)
    (ht : v'.retireTask = v.retireTask) (hq : v'.activeQueue = v.activeQueue) : v'.Tended where
  dead := by
    rw [hs, hf]
    exact h.dead
  ended := by
    rw [hr, hv, hs, hf, ht, hc]
    exact h.ended
  reading := by
    rw [hr, hv, hc, ht, hs]
    exact h.reading
  closed := by
    rw [hr, hc, hq]
    exact h.closed

theorem Fresh.same (h : v.Fresh) (hs : v'.state = v.state) (hr : v'.resident = v.resident)
    (hv : v'.receiver = v.receiver) (hc : v'.closeTask = v.closeTask)
    (ht : v'.retireTask = v.retireTask) (hq : v'.activeQueue = v.activeQueue) : v'.Fresh where
  resident := hr.trans h.resident
  closeTask := hc.trans h.closeTask
  retireTask := ht.trans h.retireTask
  activeQueue := hq.trans h.activeQueue
  state := by
    rw [hs]
    exact h.state
  ended := by
    rw [hv, hs]
    exact h.ended

theorem Tended.untouched (h : v.Tended) (hr : v.resident = true) (hs : v.state = .idle ∨ v.state = .starting) :
    v.receiver ≠ .ended ∧ v.closeTask = .absent ∧ v.retireTask = .absent := by
  have hlive : v.receiver ≠ .ended := by
    intro he
    rcases (h.ended hr he).1 with hd | hd
    · rw [hd] at hs
      rcases hs with hs | hs <;> cases hs
    · rw [hd] at hs
      rcases hs with hs | hs <;> cases hs
  exact ⟨hlive, (h.reading hr hlive).1, (h.reading hr hlive).2.1⟩

theorem Tended.dismiss (h : v.Tended) : v.dismiss.Tended := by
  apply tended_of_absent rfl
  unfold SessionRuntime.dismiss
  rw [requestClose_eq]
  exact h.dead

theorem Tended.requestClose (h : v.Tended) (hr : v.resident = false) : v.requestClose.Tended := by
  rw [requestClose_eq]
  exact tended_of_absent hr h.dead

private theorem ownTurn_state (hs : v.state = .idle ∨ v.state = .starting) (t : Nat) (binding : RunBinding)
    (mode : PermissionMode) (now : Nat) :
    (v.ownTurn t binding mode now).state ≠ .dead ∧ (v.ownTurn t binding mode now).state ≠ .closing := by
  simp only [SessionRuntime.ownTurn]
  split
  · exact ⟨RuntimeState.noConfusion, RuntimeState.noConfusion⟩
  · rcases hs with hs | hs
    · rw [hs]
      exact ⟨RuntimeState.noConfusion, RuntimeState.noConfusion⟩
    · rw [hs]
      exact ⟨RuntimeState.noConfusion, RuntimeState.noConfusion⟩

theorem Tended.ownTurn (h : v.Tended) (hs : v.state = .idle ∨ v.state = .starting) (t : Nat)
    (binding : RunBinding) (mode : PermissionMode) (now : Nat) :
    (v.ownTurn t binding mode now).Tended := by
  have hstate := ownTurn_state hs t binding mode now
  constructor
  · exact fun hd => absurd hd hstate.1
  · intro hr he
    exact absurd he (h.untouched hr hs).1
  · intro hr _
    exact ⟨(h.untouched hr hs).2.1, (h.untouched hr hs).2.2, hstate.2⟩
  · intro hr hc
    have habsent : v.closeTask = .absent := (h.untouched hr hs).2.1
    have hdone : v.closeTask = .done := hc
    rw [habsent] at hdone
    cases hdone

theorem Fresh.moveIn (h : v.Fresh) (hs : v.state = .idle ∨ v.state = .starting) (t : Nat)
    (binding : RunBinding) (mode : PermissionMode) (now : Nat) (late : Bool) :
    ((v.ownTurn t binding mode now).moveIn late).Tended := by
  have hlive : v.receiver ≠ .ended := by
    intro he
    rw [h.ended he] at hs
    rcases hs with hs | hs <;> cases hs
  have hstate := ownTurn_state hs t binding mode now
  constructor
  · exact fun hd => absurd hd hstate.1
  · exact fun _ he => absurd he hlive
  · exact fun _ _ => ⟨h.closeTask, h.retireTask, hstate.2⟩
  · intro _ hc
    have hdone : v.closeTask = .done := hc
    rw [h.closeTask] at hdone
    cases hdone

theorem receiverStopped_fields (v : SessionRuntime) :
    v.receiverStopped.resident = v.resident ∧ v.receiverStopped.receiver = .ended ∧
      v.receiverStopped.closeTask = v.closeTask ∧ v.receiverStopped.activeQueue = v.activeQueue ∧
      v.receiverStopped.state = if v.state = .closing then .closing else .dead := by
  rw [receiverStopped_eq]
  exact ⟨rfl, rfl, rfl, rfl, rfl⟩

private theorem receiverStopped_scheduled (hr : v.resident = true) (ht : v.retireTask = .absent)
    (hs : v.state ≠ .closing) : v.receiverStopped.retireTask = .scheduled := by
  unfold receiverStopped
  cases hstate : v.state with
  | closing => exact absurd hstate hs
  | starting | idle | running | draining | dead => simp [poison, scheduleRetirement, hr, ht]

private theorem receiverStopped_absent (hr : v.resident = false) : v.receiverStopped.retireTask = v.retireTask := by
  rcases v.receiverStopped_retireTask with ht | ⟨-, hres⟩
  · exact ht
  · rw [hr] at hres
    cases hres

private theorem Tended.receiverStopped (h : v.Tended) (hlive : v.receiver ≠ .ended) : v.receiverStopped.Tended := by
  obtain ⟨hres, hreceiver, hclose, hqueue, hstate⟩ := v.receiverStopped_fields
  have hflag := v.receiverStopped_flag
  constructor
  · intro hd
    rw [hflag]
    by_cases hdead : v.state = .dead
    · rw [h.dead hdead, Bool.false_and]
    · have hclosing : v.state ≠ .closing := by
        intro hc
        rw [hstate, if_pos hc] at hd
        cases hd
      simp [hdead, hclosing]
  · intro hr _
    rw [hres] at hr
    obtain ⟨-, hretire, hclosing⟩ := h.reading hr hlive
    refine ⟨.inl (by rw [hstate, if_neg hclosing]), ?_, .inl ?_⟩
    · rw [hflag]
      by_cases hdead : v.state = .dead
      · rw [h.dead hdead, Bool.false_and]
      · simp [hdead, hclosing]
    · exact receiverStopped_scheduled hr hretire hclosing
  · exact fun _ hne => absurd hreceiver hne
  · intro hr hdone
    rw [hres] at hr
    rw [hclose, (h.reading hr hlive).1] at hdone
    cases hdone

private theorem Fresh.receiverStopped (h : v.Fresh) : v.receiverStopped.Fresh := by
  obtain ⟨hres, -, hclose, hqueue, hstate⟩ := v.receiverStopped_fields
  rw [if_neg h.state] at hstate
  constructor
  · exact hres.trans h.resident
  · exact hclose.trans h.closeTask
  · exact (receiverStopped_absent h.resident).trans h.retireTask
  · exact hqueue.trans h.activeQueue
  · rw [hstate]
    exact RuntimeState.noConfusion
  · exact fun _ => hstate

private theorem Tended.poison (h : v.Tended) (hlive : v.receiver ≠ .ended) : v.poison.Tended where
  dead _ := rfl
  ended _ he := absurd he hlive
  reading hr he := ⟨(h.reading hr he).1, (h.reading hr he).2.1, RuntimeState.noConfusion⟩
  closed := h.closed

theorem Fresh.poison (h : v.Fresh) : v.poison.Fresh :=
  ⟨h.resident, h.closeTask, h.retireTask, h.activeQueue, RuntimeState.noConfusion, fun _ => rfl⟩

private theorem Observes.fields (h : Observes v v') : v'.resident = v.resident ∧
    v'.receiver = v.receiver ∧ v'.closeTask = v.closeTask ∧ v'.retireTask = v.retireTask ∧
    v'.activeQueue = v.activeQueue := by
  rw [h.fixed]
  exact ⟨rfl, rfl, rfl, rfl, rfl⟩

private theorem Tended.observed (h : v.Tended) (hlive : v.receiver ≠ .ended) (ho : Observes v v') : v'.Tended := by
  obtain ⟨hres, hreceiver, hclose, hretire, hqueue⟩ := ho.fields
  constructor
  · intro hd
    rcases ho.dead hd with hdead | hf
    · by_contra hn
      have hflag := ho.flag (by simpa using hn)
      rw [h.dead hdead] at hflag
      cases hflag
    · exact hf
  · intro _ he
    rw [hreceiver] at he
    exact absurd he hlive
  · intro hr _
    rw [hres] at hr
    obtain ⟨hc, ht, hs⟩ := h.reading hr hlive
    refine ⟨hclose.trans hc, hretire.trans ht, ?_⟩
    rcases ho.state with hs' | hs' | hs' | hs'
    · rw [hs']
      exact hs
    · rw [hs']
      exact RuntimeState.noConfusion
    · rw [hs']
      exact RuntimeState.noConfusion
    · rw [hs']
      exact RuntimeState.noConfusion
  · intro hr hdone
    rw [hres] at hr
    rw [hclose, (h.reading hr hlive).1] at hdone
    cases hdone

private theorem Fresh.observed (h : v.Fresh) (hlive : v.receiver ≠ .ended) (ho : Observes v v') : v'.Fresh := by
  obtain ⟨hres, hreceiver, hclose, hretire, hqueue⟩ := ho.fields
  constructor
  · exact hres.trans h.resident
  · exact hclose.trans h.closeTask
  · exact hretire.trans h.retireTask
  · exact hqueue.trans h.activeQueue
  · rcases ho.state with hs | hs | hs | hs
    · rw [hs]
      exact h.state
    · rw [hs]
      exact RuntimeState.noConfusion
    · rw [hs]
      exact RuntimeState.noConfusion
    · rw [hs]
      exact RuntimeState.noConfusion
  · intro he
    rw [hreceiver] at he
    exact absurd he hlive

theorem dropBinding_fields (v : SessionRuntime) : v.dropBinding.state = v.state ∧
    v.dropBinding.healthyFlag = v.healthyFlag ∧ v.dropBinding.resident = v.resident ∧
    v.dropBinding.receiver = v.receiver ∧ v.dropBinding.closeTask = v.closeTask ∧
    v.dropBinding.retireTask = v.retireTask ∧ v.dropBinding.activeQueue = v.activeQueue := by
  rw [dropBinding_eq]
  exact ⟨rfl, rfl, rfl, rfl, rfl, rfl, rfl⟩

private theorem Tended.closes (h : v.Tended) (hc : v.closeTask ≠ .absent)
    (hs : v'.state = .closing ∨ v'.state = v.state ∨ v'.state = .dead ∧ v'.healthyFlag = false)
    (hf : v'.healthyFlag = true → v.healthyFlag = true) (hr : v'.resident = v.resident)
    (hv : v.receiver = .ended → v'.receiver = .ended) (hc' : v'.closeTask ≠ .absent)
    (hq : v'.closeTask = .done → v'.activeQueue = none) : v'.Tended := by
  have hdown (hflag : v.healthyFlag = false) : v'.healthyFlag = false := by
    by_contra hn
    rw [hf (by simpa using hn)] at hflag
    cases hflag
  have hended (hres : v'.resident = true) : v.resident = true ∧ v.receiver = .ended := by
    rw [hr] at hres
    refine ⟨hres, ?_⟩
    by_contra hlive
    exact hc (h.reading hres hlive).1
  constructor
  · intro hd
    rcases hs with hs | hs | ⟨-, hs⟩
    · rw [hs] at hd
      cases hd
    · exact hdown (h.dead (hs.symm.trans hd))
    · exact hs
  · intro hres _
    obtain ⟨hstate, hflag, -⟩ := h.ended (hended hres).1 (hended hres).2
    refine ⟨?_, hdown hflag, .inr hc'⟩
    rcases hs with hs | hs | ⟨hs, -⟩
    · exact .inr hs
    · rw [hs]
      exact hstate
    · exact .inl hs
  · intro hres hlive
    exact absurd (hv (hended hres).2) hlive
  · exact fun _ => hq

theorem Tended.evolve (h : v.Tended) (he : v.evolve e = some v') : v'.Tended := by
  obtain ⟨hstate, hflag, hres, hreceiver, hclose, hretire, hqueue⟩ := v.dropBinding_fields
  cases becomes_of_evolve he with
  | entered => exact h.same rfl rfl rfl rfl rfl rfl rfl
  | unheard => exact h
  | toolReturn => exact h.same rfl rfl rfl rfl rfl rfl rfl
  | closeBegins hc =>
    have hne : v.closeTask ≠ .absent := by simp [hc]
    unfold beginClose
    split
    · refine h.closes hne (.inl rfl) ?_ hres ?_ CloseTask.noConfusion CloseTask.noConfusion
      · exact fun hf => hflag ▸ hf
      · exact fun hr => hreceiver.trans hr
    · refine h.closes hne (.inl rfl) ?_ hres ?_ CloseTask.noConfusion CloseTask.noConfusion
      · exact fun hf => hflag ▸ hf
      · intro hr
        simp [cancelReceiver, enterClosing, hreceiver, hr]
  | closeUnbound timedOut hc =>
    have hne : v.closeTask ≠ .absent := by simp [hc]
    refine h.closes hne (.inr (.inl rfl)) id rfl ?_ CloseTask.noConfusion CloseTask.noConfusion
    intro hr
    simp [cancelReceiver, hr]
  | closeDisconnected hc =>
    have hne : v.closeTask ≠ .absent := by simp [hc]
    exact h.closes hne (.inr (.inl rfl)) id rfl id CloseTask.noConfusion CloseTask.noConfusion
  | closeJoined hc =>
    have hne : v.closeTask ≠ .absent := by simp [hc]
    exact h.closes hne (.inr (.inr ⟨rfl, rfl⟩)) (fun hf => by cases hf) rfl id
      CloseTask.noConfusion fun _ => rfl
  | queued => exact h
  | frame env f hlive =>
    have hne : v.receiver ≠ .ended := by simp [hlive]
    have ho := observes_observeUnsolicited v env f
    simp only [receiveIdle]
    split
    · exact h.observed hne ho
    · have hne' : (v.observeUnsolicited env f).runtime.receiver ≠ .ended := by
        rw [ho.fields.2.1]
        exact hne
      exact ((h.observed hne ho).poison hne').receiverStopped hne'
  | receiverFails hlive =>
    have hne : v.receiver ≠ .ended := by simp [hlive]
    exact (h.poison hne).receiverStopped hne
  | receiverEnds hlive =>
    apply h.receiverStopped
    rcases hlive with hlive | hlive
    · simp [hlive]
    · simp [hlive]

theorem Fresh.evolve (h : v.Fresh) (he : v.evolve e = some v') : v'.Fresh := by
  cases becomes_of_evolve he with
  | entered => exact h.same rfl rfl rfl rfl rfl rfl
  | unheard => exact h
  | toolReturn => exact h.same rfl rfl rfl rfl rfl rfl
  | queued => exact h
  | frame env f hlive =>
    have hne : v.receiver ≠ .ended := by simp [hlive]
    have ho := observes_observeUnsolicited v env f
    simp only [receiveIdle]
    split
    · exact h.observed hne ho
    · exact (h.observed hne ho).poison.receiverStopped
  | receiverFails => exact h.poison.receiverStopped
  | receiverEnds => exact h.receiverStopped
  | closeBegins hc | closeUnbound _ hc | closeDisconnected hc | closeJoined hc =>
    rw [h.closeTask] at hc
    cases hc

theorem evolve_queue (he : v.evolve e = some v') {t : Nat}
    (h : v.activeQueue = some t ∨ v.closeTask = .done) :
    v'.activeQueue = some t ∨ v'.closeTask = .done := by
  cases becomes_of_evolve he with
  | entered | unheard => exact h
  | closeBegins hc =>
    rw [hc] at h
    left
    rw [v.beginClose_keeps.2.1]
    exact h.resolve_right CloseTask.noConfusion
  | closeUnbound timedOut hc =>
    rw [hc] at h
    exact .inl (h.resolve_right CloseTask.noConfusion)
  | closeDisconnected hc =>
    rw [hc] at h
    exact .inl (h.resolve_right CloseTask.noConfusion)
  | closeJoined => exact .inr rfl
  | queued => exact h
  | frame env f =>
    obtain ⟨-, -, hclose, -, hqueue⟩ := (observes_observeUnsolicited v env f).fields
    have hobserved : (v.observeUnsolicited env f).runtime.activeQueue = some t ∨
        (v.observeUnsolicited env f).runtime.closeTask = .done := by
      rw [hqueue, hclose]
      exact h
    simp only [receiveIdle]
    split
    · exact hobserved
    · obtain ⟨-, -, hclose, hqueue, -⟩ :=
        (v.observeUnsolicited env f).runtime.poison.receiverStopped_fields
      rw [hclose, hqueue]
      exact hobserved
  | receiverFails =>
    obtain ⟨-, -, hclose, hqueue, -⟩ := v.poison.receiverStopped_fields
    rw [hclose, hqueue]
    exact h
  | receiverEnds =>
    obtain ⟨-, -, hclose, hqueue, -⟩ := v.receiverStopped_fields
    rw [hclose, hqueue]
    exact h
  | toolReturn => exact h

theorem evolve_closeBegun (he : v.evolve e = some v')
    (hb : v'.closeBegun = true) : v.closeBegun = true ∨ e = .closeBegins := by
  cases becomes_of_evolve he with
  | closeBegins => exact .inr rfl
  | entered | unheard | toolReturn => exact .inl hb
  | closeUnbound timedOut hc =>
    simp [closeBegun, hc]
  | closeDisconnected hc =>
    simp [closeBegun, hc]
  | closeJoined hc =>
    simp [closeBegun, hc]
  | queued => exact .inl hb
  | frame env f =>
    obtain ⟨-, -, hclose, -, -⟩ := (observes_observeUnsolicited v env f).fields
    simp only [receiveIdle] at hb
    split at hb
    · rw [closeBegun, hclose] at hb
      exact .inl hb
    · obtain ⟨-, -, hclose', -, -⟩ :=
        (v.observeUnsolicited env f).runtime.poison.receiverStopped_fields
      rw [closeBegun, hclose', show (v.observeUnsolicited env f).runtime.poison.closeTask =
        (v.observeUnsolicited env f).runtime.closeTask from rfl, hclose] at hb
      exact .inl hb
  | receiverFails =>
    rw [closeBegun, v.poison.receiverStopped_fields.2.2.1] at hb
    exact .inl hb
  | receiverEnds =>
    rw [closeBegun, v.receiverStopped_fields.2.2.1] at hb
    exact .inl hb

theorem Tended.finishTurn (h : v.Tended) {unread : List (PeerEnv × Frame)} {tainted keepWarm : Bool}
    {now : Nat} (hf : (v.finishTurn unread tainted keepWarm now).healthy = true) :
    (v.finishTurn unread tainted keepWarm now).Tended := by
  simp only [healthy, Bool.and_eq_true, decide_eq_true_eq] at hf
  obtain ⟨hflag, hdead⟩ := hf
  obtain ⟨hfv, ht, hu⟩ := finishTurn_flag hflag
  have hlive (hr : v.resident = true) : v.receiver ≠ .ended := by
    intro he
    rw [(h.ended hr he).2.1] at hfv
    cases hfv
  have hstate (hs : (v.finishTurn unread tainted keepWarm now).state = .closing) : v.state = .closing := by
    simp only [SessionRuntime.finishTurn, ht, hu, settle, Bool.not_true, Bool.or_self,
      Bool.false_eq_true, if_false] at hs
    split at hs
    · cases hs
    · rcases (observes_observeUnread v.releaseQueue unread).state with hs' | hs' | hs' | hs'
      · exact hs'.symm.trans hs
      all_goals
        rw [hs'] at hs
        cases hs
  constructor
  · exact fun hd => absurd hd hdead
  · intro hr he
    rw [finishTurn_eq] at hr he
    exact absurd he (hlive hr)
  · intro hr _
    rw [finishTurn_eq] at hr
    obtain ⟨hc, hretire, hs⟩ := h.reading hr (hlive hr)
    refine ⟨?_, ?_, fun hs' => hs (hstate hs')⟩
    · rw [finishTurn_eq]
      exact hc
    · rw [finishTurn_eq]
      exact hretire
  · intro _ _
    rw [finishTurn_eq]

end SessionRuntime

end PrivaCloud.AgentRunner
