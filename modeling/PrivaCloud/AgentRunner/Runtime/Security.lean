import PrivaCloud.AgentRunner.Runtime.TurnSystem

/-!
# Peer turns run without a user's permissions

Between turns a runtime that is healthy has an unbound bridge and a CLI in the safe idle mode,
provided that no mode switch of a `start_turn` completes once a peer turn can have begun.
-/

namespace PrivaCloud.AgentRunner

open Framework

variable {r : SessionRuntime}

namespace SessionRuntime

def IdleSafe (r : SessionRuntime) : Prop :=
  r.healthy = true → r.state = .idle ∨ r.state = .draining →
    r.cliMode = idlePermissionMode ∧ r.bridge.callback = none

instance (r : SessionRuntime) : Decidable r.IdleSafe :=
  inferInstanceAs (Decidable (_ → _ → _))

/-- The receiver can still read a frame. -/
def receiving (r : SessionRuntime) : Prop := r.receiver = .absent ∨ r.receiver = .live

instance (r : SessionRuntime) : Decidable r.receiving := inferInstanceAs (Decidable (_ ∨ _))

/-- What a healthy runtime keeps whoever calls it. -/
structure Secure (r : SessionRuntime) : Prop where
  mode : r.currentPermissionMode = r.cliMode
  bound : r.healthyFlag = true → r.bridge.callback ≠ none →
    r.activeQueue ≠ none ∧ r.bridgeGeneration = some r.bridge.generation
  quiet : r.healthyFlag = true → r.state = .idle ∨ r.state = .draining → r.activeQueue = none
  plan : r.healthyFlag = true → r.activeQueue = none →
    r.state = .idle ∨ r.state = .draining ∨ r.receiving → r.cliMode = idlePermissionMode

private theorem Secure.idleSafe (h : r.Secure) : r.IdleSafe := by
  intro hh hs
  have hf : r.healthyFlag = true := by
    simp only [healthy, Bool.and_eq_true] at hh
    exact hh.1
  have hq := h.quiet hf hs
  refine ⟨h.plan hf hq (hs.imp_right .inl), ?_⟩
  by_contra hb
  exact (h.bound hf hb).1 hq

private theorem secure_of_unhealthy (hm : r.currentPermissionMode = r.cliMode)
    (hf : r.healthyFlag = false) : r.Secure where
  mode := hm
  bound h := by simp [hf] at h
  quiet h := by simp [hf] at h
  plan h := by simp [hf] at h

private theorem secure_connected (key : String) (options : RuntimeOptions) (created now : Nat) :
    ((create key options created).connected now).Secure where
  mode := rfl
  bound _ hb := absurd rfl hb
  quiet _ _ := rfl
  plan _ _ _ := rfl

private theorem Secure.of_observes {r' : SessionRuntime} (h : r.Secure) (ho : Observes r r')
    (hq : r.activeQueue = none) (hp : r.healthyFlag = true → r.cliMode = idlePermissionMode) :
    r'.Secure := by
  have hfix := ho.fixed
  have hflag := ho.flag
  rw [hfix] at *
  exact
    { mode := h.mode
      bound := fun hf => h.bound (hflag hf)
      quiet := fun _ _ => hq
      plan := fun hf _ _ => hp (hflag hf) }

private theorem Secure.receiverStopped (h : r.Secure) : r.receiverStopped.Secure := by
  rw [receiverStopped_eq]
  constructor
  · exact h.mode
  · intro hf
    exact h.bound (by simp_all)
  · intro _ hs
    simp only at hs
    split at hs <;> simp at hs
  · intro _ _ hs
    simp only [receiving] at hs
    split at hs <;> simp at hs

private theorem Secure.poison (h : r.Secure) : r.poison.Secure :=
  secure_of_unhealthy h.mode rfl

private theorem Secure.receiveIdle (h : r.Secure) (hl : r.receiver = .live)
    (hq : r.activeQueue = none) (env : PeerEnv) (f : Frame) : (r.receiveIdle env f).Secure := by
  have ho := observes_observeUnsolicited r env f
  have hs := h.of_observes ho hq fun hf => h.plan hf hq (.inr (.inr (.inr hl)))
  simp only [SessionRuntime.receiveIdle]
  split
  · exact hs
  · exact hs.poison.receiverStopped

private theorem dropBinding_unbound (hn : r.bridge.callback = none) :
    r.dropBinding.bridge.callback = none := by
  unfold dropBinding
  split
  · exact hn
  · simp only [PermissionBridge.unbindNow]
    split
    · rfl
    · exact hn

private theorem Secure.callback_dropBinding (h : r.Secure)
    (hf : r.healthyFlag = true) : r.dropBinding.bridge.callback = none := by
  by_cases hb : r.bridge.callback = none
  · exact dropBinding_unbound hb
  · obtain ⟨-, hg⟩ := h.bound hf hb
    simp [SessionRuntime.dropBinding, hg, PermissionBridge.unbindNow, PermissionBridge.unbound]

private theorem Secure.dropBinding (h : r.Secure) : r.dropBinding.Secure := by
  have hc := h.callback_dropBinding
  rw [dropBinding_eq] at hc ⊢
  constructor
  · exact h.mode
  · intro hf hb
    exact absurd (hc hf) hb
  · exact h.quiet
  · exact h.plan

private theorem Secure.requestClose (h : r.Secure) : r.requestClose.Secure := by
  rw [requestClose_eq]
  exact ⟨h.mode, h.bound, h.quiet, h.plan⟩

private theorem Secure.cancelReceiver (h : r.Secure) : r.cancelReceiver.Secure := by
  constructor
  · exact h.mode
  · exact h.bound
  · exact h.quiet
  · intro hf hq hs
    apply h.plan hf hq
    refine hs.imp_right (Or.imp_right ?_)
    simp only [SessionRuntime.cancelReceiver, receiving]
    split <;> simp_all

private theorem Secure.enterClosing (h : r.Secure) : r.enterClosing.Secure := by
  constructor
  · exact h.mode
  · exact h.bound
  · intro _ hs
    simp [SessionRuntime.enterClosing] at hs
  · intro hf hq hs
    apply h.plan hf hq
    right; right
    simpa [SessionRuntime.enterClosing, receiving] using hs

private theorem Secure.beginClose (h : r.Secure) : r.beginClose.Secure := by
  unfold SessionRuntime.beginClose
  split
  · exact h.dropBinding.enterClosing
  · exact h.dropBinding.enterClosing.cancelReceiver

private theorem Secure.closeJoined (h : r.Secure) : r.closeJoined.Secure :=
  secure_of_unhealthy h.mode rfl

private theorem Secure.setPermissionMode_self (h : r.Secure) :
    r.setPermissionMode r.currentPermissionMode = r := by
  have hm := h.mode
  cases r
  simp only at hm
  subst hm
  rfl

private theorem Secure.ownTurn (h : r.Secure) (hq : r.activeQueue = none) (t : Nat)
    (binding : RunBinding) (mode : PermissionMode) (now : Nat) :
    SessionRuntime.Secure ((r.setPermissionMode mode).ownTurn t binding mode now) := by
  by_cases hf : r.healthyFlag = true
  · have hb : r.bridge.callback = none := by
      by_contra hb
      exact (h.bound hf hb).1 hq
    constructor
    · rfl
    · intro _ _
      simp [SessionRuntime.ownTurn, setPermissionMode, hb, PermissionBridge.bind]
    · intro _ hs
      simp [SessionRuntime.ownTurn, setPermissionMode, hb] at hs
    · intro _ hn
      simp [SessionRuntime.ownTurn] at hn
  · exact secure_of_unhealthy rfl (eq_false_of_ne_true hf)

private theorem Secure.finishTurn (h : r.Secure) {unread : List (PeerEnv × Frame)}
    {tainted keepWarm : Bool} {now : Nat}
    (hp : r.healthyFlag = true → tainted = false → r.cliMode = idlePermissionMode)
    (hb : r.healthyFlag = true → r.bridge.callback = none) :
    (r.finishTurn unread tainted keepWarm now).Secure := by
  have hfl (hf : (r.finishTurn unread tainted keepWarm now).healthyFlag = true) :=
    finishTurn_flag hf
  rw [finishTurn_eq]
  constructor
  · exact h.mode
  · intro hf hn
    exact absurd (hb (hfl hf).1) hn
  · intro _ _
    rfl
  · intro hf _ _
    exact hp (hfl hf).1 (hfl hf).2.1

end SessionRuntime

namespace TurnSystem

/-- The owner of a healthy runtime has the active queue, and a quiesce has unbound the bridge. -/
structure Owns (r : SessionRuntime) (turns : Nat → TurnPhase) : Prop where
  queue : r.healthyFlag = true → ∀ t, (turns t).owner = true → r.activeQueue = some t
  unbound : r.healthyFlag = true → ∀ t, (turns t).quiescing = true → r.bridge.callback = none

structure Guarded (s : TurnSystem) : Prop where
  secure : s.runtime.Secure
  owns : Owns s.runtime s.turns

private theorem Owns.mono {r' : SessionRuntime} {turns : Nat → TurnPhase} (h : Owns r turns)
    (hf : r'.healthyFlag = true → r.healthyFlag = true)
    (hq : r'.healthyFlag = true → r'.activeQueue = r.activeQueue)
    (hb : r.bridge.callback = none → r'.bridge.callback = none) : Owns r' turns where
  queue hf' t ht := by
    rw [hq hf']
    exact h.queue (hf hf') t ht
  unbound hf' t ht := hb (h.unbound (hf hf') t ht)

private theorem Owns.setTurn {turns : Nat → TurnPhase} (h : Owns r turns) {t : Nat}
    {phase : TurnPhase}
    (ho : phase.owner = true → r.healthyFlag = true → r.activeQueue = some t)
    (hb : phase.quiescing = true → r.healthyFlag = true → r.bridge.callback = none) :
    Owns r (Function.update turns t phase) where
  queue hf u hu := by
    by_cases he : u = t
    · subst u
      exact ho (by simpa using hu) hf
    · exact h.queue hf u (by simpa [he] using hu)
  unbound hf u hu := by
    by_cases he : u = t
    · subst u
      exact hb (by simpa using hu) hf
    · exact h.unbound hf u (by simpa [he] using hu)

variable {s : TurnSystem}

private theorem Guarded.pass (h : s.Guarded) {t : Nat} {phase : TurnPhase}
    (ho : phase.owner = false) (hb : phase.quiescing = false) : (s.setTurn t phase).Guarded where
  secure := h.secure
  owns := h.owns.setTurn (by simp [ho]) (by simp [hb])

private theorem guarded_init (key : String) (options : RuntimeOptions) (created : Nat)
    (connected : Option Nat) : (init key options created connected).Guarded where
  secure := by
    cases connected with
    | none =>
      have hp : (SessionRuntime.create key options created).poison.Secure :=
        SessionRuntime.secure_of_unhealthy rfl rfl
      exact hp.requestClose
    | some now => exact SessionRuntime.secure_connected key options created now
  owns :=
    { queue := fun _ _ h => by simp [init, TurnPhase.owner] at h
      unbound := fun _ _ h => by simp [init, TurnPhase.quiescing] at h }

private theorem Guarded.own (h : s.Guarded) (hq : s.runtime.activeQueue = none) (t : Nat)
    (mode : PermissionMode) (binding : RunBinding) (now : Nat) :
    ((s.setRuntime (s.runtime.setPermissionMode mode)).own t mode binding now).Guarded where
  secure := h.secure.ownTurn hq t binding mode now
  owns := by
    have hnone (hf : s.runtime.healthyFlag = true) (u : Nat) : (s.turns u).owner = false := by
      by_contra hu
      have := h.owns.queue hf u (by simpa using hu)
      simp [hq] at this
    constructor
    · intro hf u hu
      by_cases he : u = t
      · subst u
        rfl
      · have hn := hnone hf u
        simp [TurnSystem.own, TurnSystem.setTurn, TurnSystem.setRuntime, he, hn] at hu
    · intro hf u hu
      have hn : (s.turns u).quiescing = false := by
        have := hnone hf u
        cases hp : s.turns u <;> simp_all [TurnPhase.owner, TurnPhase.quiescing]
      by_cases he : u = t
      · subst u
        simp only [TurnSystem.own, TurnSystem.setTurn, Function.update_self] at hu
        split at hu <;> simp [TurnPhase.quiescing] at hu
      · simp [TurnSystem.own, TurnSystem.setTurn, TurnSystem.setRuntime, he, hn] at hu

section Quiesce

variable {s : TurnSystem} {t : Nat} {safe : Bool} {finish : Option FinishArgs} {ending : TurnEnd}

private theorem Guarded.concludeQuiesce (h : s.Guarded)
    (hq : s.runtime.healthyFlag = true → s.runtime.activeQueue = some t)
    (hb : s.runtime.healthyFlag = true → s.runtime.bridge.callback = none)
    (hp : safe = true → s.runtime.cliMode = idlePermissionMode) :
    (s.concludeQuiesce t safe finish ending).Guarded := by
  cases finish with
  | none =>
    exact ⟨h.secure, h.owns.setTurn (fun _ hf => hq hf) (fun hn => by cases hn)⟩
  | some args =>
    have hsafe (ht : (args.tainted || !safe) = false) : s.runtime.cliMode = idlePermissionMode := by
      apply hp
      simp_all
    -- nobody else can hold the queue of this turn
    have hother {u : Nat} (he : u ≠ t) (hf : s.runtime.healthyFlag = true) : (s.turns u).owner = false := by
      by_contra hu
      have hu := h.owns.queue hf u (by simpa using hu)
      rw [hq hf] at hu
      exact he (Option.some.inj hu).symm
    constructor
    · exact h.secure.finishTurn (fun _ ht => hsafe ht) hb
    · constructor
      · intro hf u hu
        have hf := (SessionRuntime.finishTurn_flag hf).1
        by_cases he : u = t
        · subst u
          simp [TurnSystem.concludeQuiesce, TurnSystem.setTurn, TurnPhase.owner] at hu
        · simp [TurnSystem.concludeQuiesce, TurnSystem.setTurn, TurnSystem.setRuntime, he, hother he hf] at hu
      · intro hf u hu
        have hf := (SessionRuntime.finishTurn_flag hf).1
        by_cases he : u = t
        · subst u
          simp [TurnSystem.concludeQuiesce, TurnSystem.setTurn, TurnPhase.quiescing] at hu
        · have hn := hother he hf
          simp only [TurnSystem.concludeQuiesce, TurnSystem.setTurn, TurnSystem.setRuntime, he,
            ne_eq, not_false_eq_true, Function.update_of_ne] at hu
          cases hp : s.turns u <;> simp_all [TurnPhase.owner, TurnPhase.quiescing]

private theorem Guarded.leaveMode (h : s.Guarded) (hq : s.runtime.healthyFlag = true → s.runtime.activeQueue = some t)
    (hb : s.runtime.healthyFlag = true → s.runtime.bridge.callback = none) :
    (s.leaveMode t safe finish ending).Guarded := by
  unfold TurnSystem.leaveMode
  split
  · exact ⟨h.secure, h.owns.setTurn (fun _ hf => hq hf) (fun _ hf => hb hf)⟩
  · rename_i hm
    apply h.concludeQuiesce hq hb
    intro _
    rw [← h.secure.mode]
    simpa using hm

private theorem Guarded.beginQuiesce (h : s.Guarded)
    (hq : s.runtime.healthyFlag = true → s.runtime.activeQueue = some t) :
    (s.beginQuiesce t finish ending).Guarded := by
  have hb := h.secure.callback_dropBinding
  have heq := s.runtime.dropBinding_eq
  have hd : (s.setRuntime s.runtime.dropBinding).Guarded := by
    refine ⟨h.secure.dropBinding, ?_⟩
    simp only [TurnSystem.setRuntime]
    rw [heq]
    constructor
    · exact h.owns.queue
    · intro hf u _
      exact hb hf
  have hflag : s.runtime.dropBinding.healthyFlag = s.runtime.healthyFlag := by rw [heq]
  have hqueue : s.runtime.dropBinding.activeQueue = s.runtime.activeQueue := by rw [heq]
  have hq' : s.runtime.dropBinding.healthyFlag = true → s.runtime.dropBinding.activeQueue = some t := by
    rw [hflag, hqueue]
    exact hq
  have hb' : s.runtime.dropBinding.healthyFlag = true → s.runtime.dropBinding.bridge.callback = none := by
    rw [hflag]
    exact hb
  simp only [TurnSystem.beginQuiesce]
  split
  · exact ⟨hd.secure, hd.owns.setTurn (fun _ hf => hq' hf) (fun _ hf => hb' hf)⟩
  · exact hd.leaveMode hq' hb'

end Quiesce

/-- A peer turn has begun, or the receiver may still begin one, on a runtime that no longer waits
for a turn. -/
def PeerWindow (r : SessionRuntime) : Prop :=
  r.state = .draining ∨ r.startBlocked = true ∧ r.receiving

instance (r : SessionRuntime) : Decidable (PeerWindow r) := inferInstanceAs (Decidable (_ ∨ _))

/-- No switch to a user's mode completes on a healthy runtime without a turn in the peer window. -/
def KeepsIdleMode (s : TurnSystem) : TurnEvent → Prop
  | .switched t _ =>
    match s.turns t with
    | .switching mode _ =>
      mode = idlePermissionMode ∨ s.runtime.healthyFlag = false ∨
        s.runtime.activeQueue ≠ none ∨ ¬PeerWindow s.runtime
    | _ => True
  | _ => True

instance (s : TurnSystem) (e : TurnEvent) : Decidable (KeepsIdleMode s e) := by
  cases e <;> dsimp only [KeepsIdleMode] <;> first | infer_instance | (split <;> infer_instance)

private theorem Guarded.setRuntime (h : s.Guarded)
    (hs : r.Secure) (hf : r.healthyFlag = true → s.runtime.healthyFlag = true)
    (hq : r.healthyFlag = true → r.activeQueue = s.runtime.activeQueue)
    (hb : s.runtime.bridge.callback = none → r.bridge.callback = none) : (s.setRuntime r).Guarded :=
  ⟨hs, h.owns.mono hf hq hb⟩

variable {s' : TurnSystem}

private theorem Guarded.switched (h : s.Guarded) {t now : Nat}
    (hc : KeepsIdleMode s (.switched t now)) (hs : s.step (.switched t now) = some s') :
    s'.Guarded := by
  simp only [step] at hs
  split at hs
  · rename_i mode binding hp
    simp only [KeepsIdleMode, hp] at hc
    split at hs
    · rename_i hblocked
      cases hs
      have hplan (hf : s.runtime.healthyFlag = true) (hq : s.runtime.activeQueue = none)
          (hw : s.runtime.state = .idle ∨ s.runtime.state = .draining ∨ s.runtime.receiving) :
          mode = idlePermissionMode := by
        rcases hc with hc | hc | hc | hc
        · exact hc
        · simp [hf] at hc
        · exact absurd hq hc
        · exfalso
          apply hc
          have hb : s.runtime.startBlocked = true := hblocked
          rcases hw with hw | hw | hw
          · simp [SessionRuntime.startBlocked, hw, hq] at hb
          · exact .inl hw
          · exact .inr ⟨hb, hw⟩
      have hsec : (s.runtime.setPermissionMode mode).Secure :=
        ⟨rfl, h.secure.bound, h.secure.quiet, hplan⟩
      exact (h.setRuntime hsec id (fun _ => rfl) id).pass rfl rfl
    · rename_i hfree
      cases hs
      apply h.own
      simp only [TurnSystem.setRuntime, SessionRuntime.setPermissionMode, SessionRuntime.startBlocked] at hfree
      simp_all
  · cases hs

private theorem Guarded.start (h : s.Guarded) {t now : Nat} {mode : PermissionMode}
    {binding : RunBinding} {deferred : Bool}
    (hs : s.step (.start t mode binding deferred now) = some s') : s'.Guarded := by
  simp only [step] at hs
  split at hs
  · split at hs
    · cases hs
      exact h.pass rfl rfl
    · rename_i hfree
      split at hs
      · cases hs
        exact h.pass rfl rfl
      · rename_i hmode
        cases hs
        -- the CLI is in the mode of the turn already
        have hset : s.setRuntime (s.runtime.setPermissionMode mode) = s := by
          rw [show mode = s.runtime.currentPermissionMode by simpa using hmode, h.secure.setPermissionMode_self]
          rfl
        have hq : s.runtime.activeQueue = none := by
          simp only [SessionRuntime.startBlocked] at hfree
          simp_all
        have hown := h.own hq t mode binding now
        rwa [hset] at hown
  · cases hs

private theorem Guarded.evolve (h : s.Guarded) {e : RuntimeEvent}
    (hr : s.runtime.evolve e = some r) : (s.setRuntime r).Guarded := by
  cases SessionRuntime.becomes_of_evolve hr with
  | entered | toolReturn | closeDisconnected =>
    exact h.setRuntime ⟨h.secure.mode, h.secure.bound, h.secure.quiet, h.secure.plan⟩ id
      (fun _ => rfl) id
  | unheard | queued => exact h
  | closeBegins =>
    obtain ⟨hf, hq, hb⟩ := s.runtime.beginClose_keeps
    apply h.setRuntime h.secure.beginClose (by simp [hf]) (fun _ => hq)
    intro hn
    rw [hb]
    exact SessionRuntime.dropBinding_unbound hn
  | closeUnbound => exact h.setRuntime h.secure.cancelReceiver id (fun _ => rfl) id
  | closeJoined => exact h.setRuntime h.secure.closeJoined nofun nofun id
  | frame env f hl hq =>
    obtain ⟨hf, hqueue, hb⟩ := s.runtime.receiveIdle_keeps env f
    apply h.setRuntime (h.secure.receiveIdle hl hq env f) hf (fun _ => hqueue)
    rw [hb]
    exact id
  | receiverFails =>
    have hsec := h.secure.poison.receiverStopped
    rw [SessionRuntime.receiverStopped_eq] at hsec ⊢
    exact h.setRuntime hsec nofun nofun id
  | receiverEnds =>
    have hsec := h.secure.receiverStopped
    rw [SessionRuntime.receiverStopped_eq] at hsec ⊢
    apply h.setRuntime hsec _ (fun _ => rfl) id
    intro hf
    simp only [Bool.and_eq_true] at hf
    exact hf.1

private theorem Guarded.step (h : s.Guarded) {e : TurnEvent} (hc : KeepsIdleMode s e)
    (hs : s.step e = some s') : s'.Guarded := by
  cases e with
  | start t mode binding deferred now => exact h.start hs
  | switched t now => exact h.switched hc hs
  | reverted t =>
    simp only [TurnSystem.step] at hs
    split at hs <;> cases hs
    have hsec : (s.runtime.setPermissionMode idlePermissionMode).Secure :=
      ⟨rfl, h.secure.bound, h.secure.quiet, fun _ _ _ => rfl⟩
    exact (h.setRuntime hsec id (fun _ => rfl) id).pass rfl rfl
  | startFails t =>
    simp only [TurnSystem.step] at hs
    split at hs <;> cases hs
    all_goals exact h.pass rfl rfl
  | quiesce t =>
    simp only [TurnSystem.step] at hs
    split at hs <;> cases hs
    rename_i hp
    exact h.beginQuiesce fun hf => h.owns.queue hf t (by rw [hp]; rfl)
  | finish t args ending =>
    simp only [TurnSystem.step] at hs
    split at hs <;> cases hs
    rename_i hp
    exact h.beginQuiesce fun hf => h.owns.queue hf t (by rw [hp]; rfl)
  | unbound t timedOut ending =>
    simp only [TurnSystem.step] at hs
    split at hs
    · rename_i hp
      split at hs <;> cases hs
      exact h.leaveMode (fun hf => h.owns.queue hf t (by rw [hp]; rfl))
        (fun hf => h.owns.unbound hf t (by rw [hp]; rfl))
    · cases hs
  | reset t ending =>
    simp only [TurnSystem.step] at hs
    split at hs <;> cases hs
    rename_i hp
    have hsec : (s.runtime.setPermissionMode idlePermissionMode).Secure :=
      ⟨rfl, h.secure.bound, h.secure.quiet, fun _ _ _ => rfl⟩
    exact (h.setRuntime hsec id (fun _ => rfl) id).concludeQuiesce
      (fun hf => h.owns.queue hf t (by rw [hp]; rfl))
      (fun hf => h.owns.unbound hf t (by rw [hp]; rfl)) (fun _ => rfl)
  | resetFails t ending =>
    simp only [TurnSystem.step] at hs
    split at hs <;> cases hs
    rename_i hp
    exact h.concludeQuiesce (fun hf => h.owns.queue hf t (by rw [hp]; rfl))
      (fun hf => h.owns.unbound hf t (by rw [hp]; rfl)) nofun
  | quiesceCancelled t =>
    simp only [TurnSystem.step] at hs
    split at hs
    · rename_i hp
      cases hs
      exact ⟨h.secure, h.owns.setTurn (fun _ hf => h.owns.queue hf t (by rw [hp]; rfl)) nofun⟩
    · rename_i hp
      cases hs
      exact ⟨h.secure, h.owns.setTurn (fun _ hf => h.owns.queue hf t (by rw [hp]; rfl)) nofun⟩
    · cases hs
      exact h.pass rfl rfl
    · cases hs
      exact h.pass rfl rfl
    · cases hs
  | close =>
    cases hs
    have hsec := h.secure.requestClose
    rw [SessionRuntime.requestClose_eq] at hsec ⊢
    exact h.setRuntime hsec id (fun _ => rfl) id
  | evolve e =>
    obtain ⟨r, hr, rfl⟩ := Option.map_eq_some_iff.mp hs
    exact h.evolve hr

private theorem guarded_of_run {es : List TurnEvent} (h : s.Guarded)
    (hm : RunMeets step KeepsIdleMode s es) (hr : run step s es = some s') : s'.Guarded :=
  run_invariant (fun _ _ _ hi hc hs => hi.step hc hs) h hm hr

/-- Whatever the interleaving, a healthy runtime that waits for a turn or drains the turn of a peer
has its CLI in the idle mode and no run bound. -/
theorem idleSafe_of_keepsIdleMode (key : String) (options : RuntimeOptions) (created : Nat)
    (connected : Option Nat) (es : List TurnEvent) (s : TurnSystem)
    (hm : RunMeets step KeepsIdleMode (init key options created connected) es)
    (hr : run step (init key options created connected) es = some s) : s.runtime.IdleSafe :=
  (guarded_of_run (guarded_init key options created connected) hm hr).secure.idleSafe

def peerFrame : Frame :=
  { type := .user, originKind := some "peer", parsed := .message (some "user") }

def userBinding : RunBinding :=
  { run := 1, effectiveMode := .default, enableFeedback := true, hasCoordinator := true }

def turnThenPeer : List TurnEvent :=
  [.start 0 .default userBinding false 1, .switched 0 2, .evolve .toolCall, .evolve .toolReturn, .quiesce 0,
    .reset 0 {}, .finish 0 ⟨false, true⟩ {}, .evolve (.frame {} peerFrame)]

theorem idleSafe_turnThenPeer :
    ∃ s, run step (init "s" {} 0 (some 0)) turnThenPeer = some s ∧ s.runtime.state = .draining ∧
      s.runtime.IdleSafe := by
  obtain ⟨s, hr, ht⟩ := exists_run_of_map step (init "s" {} 0 (some 0)) turnThenPeer
    (fun s => s.runtime.state = .draining) (by decide)
  exact ⟨s, hr, of_decide_eq_true ht, idleSafe_of_keepsIdleMode "s" {} 0 (some 0) turnThenPeer s (by decide) hr⟩

/-- The turn of a peer begins while a mode switch is on its way: it goes on under the user's mode. -/
theorem peerDuringSwitch_not_idleSafe : ∃ s, run step (init "s" {} 0 (some 0))
        [.start 0 .default userBinding false 1, .evolve (.frame {} peerFrame), .switched 0 2] = some s ∧
      s.runtime.healthy = true ∧ s.runtime.state = .draining ∧ s.runtime.cliMode = .default ∧
      ¬s.runtime.IdleSafe := by
  obtain ⟨s, hr, ht⟩ := exists_run_of_map step (init "s" {} 0 (some 0))
    [.start 0 .default userBinding false 1, .evolve (.frame {} peerFrame), .switched 0 2]
    (fun s => s.runtime.healthy = true ∧ s.runtime.state = .draining ∧
      s.runtime.cliMode = .default ∧ ¬s.runtime.IdleSafe) (by decide)
  exact ⟨s, hr, of_decide_eq_true ht⟩

end TurnSystem

end PrivaCloud.AgentRunner
