import PrivaCloud.AgentRunner.Runtime.SessionRuntime

/-!
# Runtimes between the sections of their tenants

What can happen to a runtime without the call that has reserved or leased it, as far as a pool can
tell.
-/

namespace PrivaCloud.AgentRunner

namespace SessionRuntime

/-- The identity of the runtime stays, its health and its rights only shrink, and a healthy runtime
keeps its turn. -/
structure Evolves (v v' : SessionRuntime) : Prop where
  key : v'.key = v.key
  writeScope : v'.writeScope = v.writeScope
  fingerprint : v'.fingerprint = v.fingerprint
  resident : v'.resident = v.resident
  flag : v'.healthyFlag = true → v.healthyFlag = true
  queue : v'.healthyFlag = true → v'.activeQueue = v.activeQueue
  turn : ∀ t, v'.activeQueue = some t → v.activeQueue = some t ∧ v'.turnWriteCapable = v.turnWriteCapable
  writes : v'.turnWriteCapable = true → v.turnWriteCapable = true
  starting : v'.state = .starting → v.state = .starting ∧ v'.turnWriteCapable = v.turnWriteCapable

theorem Evolves.refl (v : SessionRuntime) : Evolves v v :=
  ⟨rfl, rfl, rfl, rfl, id, fun _ => rfl, fun _ h => ⟨h, rfl⟩, id, fun h => ⟨h, rfl⟩⟩

variable {v v' : SessionRuntime}

theorem Evolves.trans {v'' : SessionRuntime} (h : Evolves v v') (h' : Evolves v' v'') : Evolves v v'' where
  key := h'.key.trans h.key
  writeScope := h'.writeScope.trans h.writeScope
  fingerprint := h'.fingerprint.trans h.fingerprint
  resident := h'.resident.trans h.resident
  flag hf := h.flag (h'.flag hf)
  queue hf := (h'.queue hf).trans (h.queue (h'.flag hf))
  turn t ht := by
    obtain ⟨hq, hw⟩ := h'.turn t ht
    obtain ⟨hq', hw'⟩ := h.turn t hq
    exact ⟨hq', hw.trans hw'⟩
  writes hw := h.writes (h'.writes hw)
  starting hs := by
    obtain ⟨hs, hw⟩ := h'.starting hs
    obtain ⟨hs', hw'⟩ := h.starting hs
    exact ⟨hs', hw.trans hw'⟩

private theorem eq_of_observe_starting {env : PeerEnv} {f : Frame}
    (hs : (v.observeUnsolicited env f).runtime.state = .starting) :
    (v.observeUnsolicited env f).runtime = v := by
  have hclose (w : SessionRuntime) : (w.closePeer env.now).state ≠ .starting := by
    cases hf : w.healthyFlag <;> simp [closePeer, hf]
  obtain h | h | ⟨record, -, h⟩ | ⟨-, h | ⟨record, h⟩⟩ := observe_cases v env f
  · exact h
  · rw [h] at hs
    cases hs
  · rw [h] at hs
    cases hs
  · rw [h] at hs
    exact absurd hs (hclose v)
  · rw [h] at hs
    exact absurd hs (hclose _)

private theorem evolves_receiverStopped (v : SessionRuntime) : Evolves v v.receiverStopped := by
  rw [receiverStopped_eq]
  constructor
  · rfl
  · rfl
  · rfl
  · rfl
  · intro hf
    exact (Bool.and_eq_true_iff.mp hf).1
  · intro _
    rfl
  · intro t ht
    exact ⟨ht, rfl⟩
  · exact id
  · intro hs
    simp only at hs
    split at hs <;> cases hs

theorem evolves_poison (v : SessionRuntime) : Evolves v v.poison where
  key := rfl
  writeScope := rfl
  fingerprint := rfl
  resident := rfl
  flag hf := by cases hf
  queue hf := by cases hf
  turn _ ht := ⟨ht, rfl⟩
  writes := id
  starting hs := by cases hs

private theorem evolves_observe (hq : v.activeQueue = none) (env : PeerEnv)
    (f : Frame) : Evolves v (v.observeUnsolicited env f).runtime := by
  have ho := observes_observeUnsolicited v env f
  have hfix := ho.fixed
  constructor
  · rw [hfix]
  · rw [hfix]
  · rw [hfix]
  · rw [hfix]
  · exact ho.flag
  · intro _
    rw [hfix]
  · intro t ht
    rw [hfix, hq] at ht
    cases ht
  · exact ho.writes
  · intro hs
    have heq := eq_of_observe_starting hs
    rw [heq] at hs ⊢
    exact ⟨hs, rfl⟩

private theorem evolves_receiveIdle (hq : v.activeQueue = none) (env : PeerEnv)
    (f : Frame) : Evolves v (v.receiveIdle env f) := by
  have ho := evolves_observe hq env f
  simp only [receiveIdle]
  split
  · exact ho
  · exact (ho.trans (evolves_poison _)).trans (evolves_receiverStopped _)

theorem evolves_of_same (hk : v'.key = v.key)
    (hw : v'.writeScope = v.writeScope) (hp : v'.fingerprint = v.fingerprint)
    (hr : v'.resident = v.resident) (hf : v'.healthyFlag = v.healthyFlag)
    (hq : v'.activeQueue = v.activeQueue) (hc : v'.turnWriteCapable = v.turnWriteCapable)
    (hs : v'.state = v.state) : Evolves v v' where
  key := hk
  writeScope := hw
  fingerprint := hp
  resident := hr
  flag h := hf ▸ h
  queue _ := hq
  turn _ h := ⟨hq ▸ h, hc⟩
  writes h := hc ▸ h
  starting h := ⟨hs ▸ h, hc⟩

theorem evolves_requestClose (v : SessionRuntime) : Evolves v v.requestClose := by
  rw [requestClose_eq]
  exact evolves_of_same rfl rfl rfl rfl rfl rfl rfl rfl

theorem evolves_dropBinding (v : SessionRuntime) : Evolves v v.dropBinding := by
  rw [dropBinding_eq]
  exact evolves_of_same rfl rfl rfl rfl rfl rfl rfl rfl

theorem evolves_setPermissionMode (v : SessionRuntime) (mode : PermissionMode) :
    Evolves v (v.setPermissionMode mode) :=
  evolves_of_same rfl rfl rfl rfl rfl rfl rfl rfl

private theorem evolves_beginClose (v : SessionRuntime) : Evolves v v.beginClose := by
  have hd := evolves_dropBinding v
  have hc : Evolves v v.dropBinding.enterClosing :=
    ⟨hd.key, hd.writeScope, hd.fingerprint, hd.resident, hd.flag, hd.queue, hd.turn, hd.writes, nofun⟩
  unfold beginClose
  split
  · exact hc
  · exact ⟨hc.key, hc.writeScope, hc.fingerprint, hc.resident, hc.flag, hc.queue, hc.turn,
      hc.writes, hc.starting⟩

private theorem evolves_closeJoined (v : SessionRuntime) : Evolves v v.closeJoined where
  key := rfl
  writeScope := rfl
  fingerprint := rfl
  resident := rfl
  flag hf := by cases hf
  queue hf := by cases hf
  turn _ ht := by cases ht
  writes hw := by cases hw
  starting hs := by cases hs

variable {e : RuntimeEvent}

theorem evolves_evolve (h : v.evolve e = some v') :
    Evolves v v' := by
  cases becomes_of_evolve h with
  | entered => exact evolves_of_same rfl rfl rfl rfl rfl rfl rfl rfl
  | unheard => exact .refl v
  | toolReturn => exact evolves_of_same rfl rfl rfl rfl rfl rfl rfl rfl
  | closeBegins => exact evolves_beginClose v
  | closeUnbound | closeDisconnected => exact evolves_of_same rfl rfl rfl rfl rfl rfl rfl rfl
  | closeJoined => exact evolves_closeJoined v
  | queued => exact .refl v
  | frame env f _ hq => exact evolves_receiveIdle hq env f
  | receiverFails => exact (evolves_poison v).trans (evolves_receiverStopped _)
  | receiverEnds => exact evolves_receiverStopped v

def endsPeer (v : SessionRuntime) : RuntimeEvent → Bool
  | .frame _ f => v.activeQueue.isNone && v.completesPeer f
  | _ => false

/-- The section hands the runtime a frame that starts a peer turn, and the pool lets it in. -/
def startsPeer : RuntimeEvent → Bool
  | .frame env _ => env.admits
  | _ => false

inductive Reaches (v v' : SessionRuntime) (e : RuntimeEvent) : Prop
  | same (h : v'.state = v.state)
  | closing (h : v'.state = .closing)
  | dead (h : v'.state = .dead) (hf : v'.healthyFlag = false)
  | draining (h : v'.state = .draining) (hs : startsPeer e = true)
  | idle (h : v'.state = .idle) (hs : v.endsPeer e = true)

private theorem reaches_receiverStopped (v : SessionRuntime) (e : RuntimeEvent) : Reaches v v.receiverStopped e := by
  have hf := v.receiverStopped_flag
  have hs : v.receiverStopped.state = if v.state = .closing then .closing else .dead := by
    rw [receiverStopped_eq]
  by_cases hc : v.state = .closing
  · exact .closing (by rw [hs, if_pos hc])
  · by_cases hd : v.state = .dead
    · exact .same (by rw [hs, if_neg hc, hd])
    · exact .dead (by rw [hs, if_neg hc]) (by rw [hf]; simp [hc, hd])

private theorem reaches_poisoned (v w : SessionRuntime) (e : RuntimeEvent) : Reaches v w.poison.receiverStopped e := by
  have hf := w.poison.receiverStopped_flag
  have hs : w.poison.receiverStopped.state = if w.poison.state = .closing then .closing else .dead := by
    rw [receiverStopped_eq]
  exact .dead (by rw [hs]; rfl) (by rw [hf]; rfl)

private theorem reaches_observe (hq : v.activeQueue = none) (env : PeerEnv)
    (f : Frame) : Reaches v (v.observeUnsolicited env f).runtime (.frame env f) := by
  have hclose (w : SessionRuntime) (hc : v.completesPeer f = true) :
      Reaches v (w.closePeer env.now) (.frame env f) := by
    cases hf : w.healthyFlag with
    | false => exact .dead (by simp [closePeer, hf]) hf
    | true => exact .idle (by simp [closePeer, hf]) (by simp [endsPeer, hq, hc])
  obtain h | h | ⟨record, hadmits, h⟩ | ⟨hc, h | ⟨record, h⟩⟩ := observe_cases v env f
  · exact .same (by rw [h])
  · exact .dead (by rw [h]; rfl) (by rw [h]; rfl)
  · exact .draining (by rw [h]; rfl) hadmits
  · rw [h]
    exact hclose v hc
  · rw [h]
    exact hclose _ hc

theorem reaches_evolve (h : v.evolve e = some v') :
    Reaches v v' e := by
  cases becomes_of_evolve h with
  | entered | unheard | toolReturn => exact .same rfl
  | closeBegins =>
    apply Reaches.closing
    unfold beginClose
    split <;> rfl
  | closeUnbound | closeDisconnected => exact .same rfl
  | closeJoined => exact .dead rfl rfl
  | queued => exact .same rfl
  | frame env f _ hq =>
    simp only [receiveIdle]
    split
    · exact reaches_observe hq env f
    · exact reaches_poisoned v _ _
  | receiverFails => exact reaches_poisoned v v _
  | receiverEnds => exact reaches_receiverStopped v _

theorem evolve_idle (h : v.evolve e = some v')
    (hn : v.endsPeer e = false) (hs : v'.state = .idle) : v.state = .idle := by
  cases reaches_evolve h with
  | same h => rw [← h, hs]
  | closing h => rw [h] at hs; cases hs
  | dead h _ => rw [h] at hs; cases hs
  | draining h _ => rw [h] at hs; cases hs
  | idle _ he => rw [hn] at he; cases he

theorem evolve_closeTask (h : v.evolve e = some v')
    (hc : v.closeTask = .absent) : v'.closeTask = .absent := by
  cases becomes_of_evolve h with
  | entered | unheard | toolReturn | queued => exact hc
  | frame env f =>
    have hfix := (observes_observeUnsolicited v env f).fixed
    simp only [receiveIdle]
    split
    · rw [hfix]
      exact hc
    · rw [receiverStopped_eq]
      simp only [poison]
      rw [hfix]
      exact hc
  | receiverFails =>
    rw [receiverStopped_eq]
    exact hc
  | receiverEnds =>
    rw [receiverStopped_eq]
    exact hc
  | closeBegins hc' | closeUnbound _ hc' | closeDisconnected hc' | closeJoined hc' =>
    rw [hc] at hc'
    cases hc'

def Unclosed (r : SessionRuntime) : Prop := r.closeTask = .absent ∨ r.closeTask = .scheduled

private theorem receiveIdle_tasks (r : SessionRuntime) (env : PeerEnv) (f : Frame) :
    (r.receiveIdle env f).closeTask = r.closeTask ∧
      ((r.receiveIdle env f).receiver = r.receiver ∨ (r.receiveIdle env f).receiver = .ended) := by
  have hfix := (observes_observeUnsolicited r env f).fixed
  simp only [receiveIdle]
  split
  · rw [hfix]
    exact ⟨rfl, .inl rfl⟩
  · rw [receiverStopped_eq]
    refine ⟨?_, .inr rfl⟩
    simp only [poison]
    rw [hfix]

theorem beginClose_tasks (r : SessionRuntime) :
    ¬ r.beginClose.Unclosed ∧ (r.beginClose.receiver = .live → r.receiver = .live) ∧
      (r.receiver = .ended → r.beginClose.receiver = .ended) := by
  have hreceiver : r.dropBinding.receiver = r.receiver := by rw [dropBinding_eq]
  unfold beginClose
  split
  · refine ⟨by simp [Unclosed, enterClosing], ?_, ?_⟩
    · exact fun h => hreceiver.symm.trans h
    · exact fun h => hreceiver.trans h
  · refine ⟨by simp [Unclosed, cancelReceiver], ?_, ?_⟩
    · intro h
      simp only [cancelReceiver, enterClosing, hreceiver] at h
      split at h
      · assumption
      · exact h
    · intro h
      simp [cancelReceiver, enterClosing, hreceiver, h]

theorem evolve_receiver {r r' : SessionRuntime} (h : r.evolve e = some r') :
    (r'.receiver = .live → r.receiver = .live) ∧ (r.receiver = .ended → r'.receiver = .ended) := by
  cases becomes_of_evolve h with
  | entered | unheard | toolReturn => exact ⟨id, id⟩
  | closeBegins => exact (beginClose_tasks r).2
  | closeUnbound timedOut =>
    simp only [cancelReceiver]
    split
    · rename_i hlive
      exact ⟨fun _ => hlive, fun hended => absurd (hlive.symm.trans hended) (by decide)⟩
    · exact ⟨id, id⟩
  | closeDisconnected | closeJoined | queued => exact ⟨id, id⟩
  | frame env f hlive =>
    exact ⟨fun _ => hlive, fun hended => absurd (hlive.symm.trans hended) (by decide)⟩
  | receiverFails =>
    rw [receiverStopped_eq]
    exact ⟨ReceiverTask.noConfusion, fun _ => rfl⟩
  | receiverEnds =>
    rw [receiverStopped_eq]
    exact ⟨ReceiverTask.noConfusion, fun _ => rfl⟩

/-- How far a section takes the close. -/
inductive CloseStep : RuntimeEvent → CloseTask → CloseTask → Prop
  | stays (e : RuntimeEvent) (task : CloseTask) (he : e ≠ .closeBegins ∧ e ≠ .closeJoined) : CloseStep e task task
  | drains : CloseStep .closeBegins .scheduled .unbinding
  | begins : CloseStep .closeBegins .scheduled .disconnecting
  | unbound (timedOut : Bool) : CloseStep (.closeUnbound timedOut) .unbinding .disconnecting
  | disconnected : CloseStep .closeDisconnected .disconnecting .joining
  | joined : CloseStep .closeJoined .joining .done

theorem closeStep_evolve {r r' : SessionRuntime} (h : r.evolve e = some r') :
    CloseStep e r.closeTask r'.closeTask := by
  cases becomes_of_evolve h with
  | entered | unheard | toolReturn => exact .stays _ _ (by simp)
  | closeBegins hc =>
    rw [hc]
    unfold beginClose
    split
    · exact .drains
    · exact .begins
  | closeUnbound timedOut hc =>
    rw [hc]
    exact .unbound timedOut
  | closeDisconnected hc =>
    rw [hc]
    exact .disconnected
  | closeJoined hc =>
    rw [hc]
    exact .joined
  | queued => exact .stays _ _ (by simp)
  | frame env f =>
    rw [(receiveIdle_tasks r env f).1]
    exact .stays _ _ (by simp)
  | receiverFails =>
    rw [receiverStopped_eq]
    exact .stays _ _ (by simp)
  | receiverEnds =>
    rw [receiverStopped_eq]
    exact .stays _ _ (by simp)

theorem evolve_unclosed {r r' : SessionRuntime} (h : r.evolve e = some r') :
    (r'.Unclosed → r.Unclosed) ∧ (e ≠ .closeBegins → r.Unclosed → r'.Unclosed) := by
  have hstep := closeStep_evolve h
  unfold Unclosed
  generalize r.closeTask = task at hstep
  generalize r'.closeTask = task' at hstep
  cases hstep with
  | stays => exact ⟨id, fun _ => id⟩
  | drains => simp
  | begins => simp
  | unbound timedOut => simp
  | disconnected => simp
  | joined => simp

theorem unclosed_requestClose (r : SessionRuntime) : r.requestClose.Unclosed ↔ r.Unclosed := by
  unfold Unclosed requestClose
  split
  · rename_i hc
    simp [hc]
  · rfl

end SessionRuntime

end PrivaCloud.AgentRunner
