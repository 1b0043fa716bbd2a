import Mathlib.Data.List.Infix
import PrivaCloud.AgentRunner.Permission.Bridge

/-!
# Session runtimes

`session_runtime_pool.SessionRuntime`: one physical CLI that serves one turn at a time. Its coroutines are
cut at their awaits, one function a section. The clock, the answers of `peer_admission` and of the run
registry and the unread frames of a turn are arguments.
-/

namespace PrivaCloud.AgentRunner

abbrev Path := List String

def parents (p : Path) : List Path := p.inits.dropLast

def writeScopesOverlap (left right : List Path) : Bool :=
  left.any fun a => right.any fun b => a = b || a ∈ parents b || b ∈ parents a

/-- The startup options that admission reads, with resolved paths; `startup` stands for every other
option that the CLI is started with. -/
structure RuntimeOptions where
  cwd : Option Path := none
  addDirs : List Path := []
  permissionMode : Option PermissionMode := none
  startup : String := ""
  deriving DecidableEq

/-- `options_fingerprint`: the digest has no collisions, so the digested values stand for it. -/
def RuntimeOptions.fingerprint (o : RuntimeOptions) :
    Option Path × List Path × Option PermissionMode × String :=
  (o.cwd, o.addDirs, o.permissionMode, o.startup)

def RuntimeOptions.writeScope (o : RuntimeOptions) : List Path :=
  (o.cwd.toList ++ o.addDirs).eraseDups

def RuntimeOptions.turnPermissionMode (o : RuntimeOptions) : PermissionMode :=
  o.permissionMode.getD .default

/-- `IDLE_PERMISSION_MODE` -/
def idlePermissionMode : PermissionMode := .plan

inductive FrameType
  | promptSuggestion
  | system
  | assistant
  | result
  | streamEvent
  | user
  | queueOperation
  | other (name : String)
  deriving DecidableEq

/-- The outcome of the SDK's `parse_message`, with the event label of the message. -/
inductive ParsedFrame
  | raises
  | unknown
  | message (label : Option String)
  deriving DecidableEq

structure Frame where
  type : FrameType
  subtype : Option String := none
  /-- `origin["kind"]`, when the origin is a dict -/
  originKind : Option String := none
  /-- `message["content"]`, when it is a string -/
  content : Option String := none
  /-- `suggestion` is a string that is not blank -/
  hasSuggestion : Bool := false
  parsed : ParsedFrame := .unknown
  deriving DecidableEq

namespace Frame

def eventLabel (f : Frame) : Option String :=
  match f.parsed with
  | .message label => label
  | .raises | .unknown => none

def skipped (f : Frame) : Bool :=
  f.type = .promptSuggestion || f.type = .system && f.subtype = some "session_state_changed"

def peerEnvelope (f : Frame) : Bool :=
  f.type = .user && f.content.any fun content =>
    ["<agent-message", "<teammate-message", "Another Claude session sent a message:"].any
      fun mark => mark.toList <:+: content.toList

def opensPeer (f : Frame) : Bool := f.originKind = some "peer" || f.peerEnvelope

def substantive (f : Frame) : Bool :=
  f.type = .assistant || f.type = .result || f.type = .streamEvent || f.type = .user

end Frame

inductive RuntimeState
  | starting
  | idle
  | running
  | draining
  | closing
  | dead
  deriving DecidableEq

inductive ReceiverTask
  | absent
  | live
  /-- cancelled by the close, the cancellation is not delivered yet -/
  | cancelled
  | ended
  deriving DecidableEq

/-- Where the shared task of `_close_physical` is suspended. -/
inductive CloseTask
  | absent
  | scheduled
  | unbinding
  | disconnecting
  | joining
  | done
  deriving DecidableEq

/-- The task of `_retire_dead_runtime`. -/
inductive RetireTask
  | absent
  | scheduled
  | closing
  | done
  deriving DecidableEq

structure SessionRuntime where
  key : String
  sessionId : Option String := none
  fingerprint : Option Path × List Path × Option PermissionMode × String := (none, [], none, "")
  writeScope : List Path := []
  state : RuntimeState := .starting
  lastUsed : Nat := 0
  receiver : ReceiverTask := .absent
  /-- The queue of the active turn, by the number of the turn. -/
  activeQueue : Option Nat := none
  bridge : PermissionBridge := {}
  bridgeGeneration : Option Nat := none
  /-- `_healthy` -/
  healthyFlag : Bool := true
  retireOnIdle : Bool := false
  unsolicitedActive : Bool := false
  unsolicitedRecord : Option Nat := none
  closeTask : CloseTask := .absent
  resident : Bool := false
  retireTask : RetireTask := .absent
  currentPermissionMode : PermissionMode := idlePermissionMode
  /-- The mode that the last completed control request put the CLI in. -/
  cliMode : PermissionMode := idlePermissionMode
  turnWriteCapable : Bool := false

/-- The answer of the run registry to a peer turn. -/
inductive PeerClaim
  | created (record : Nat)
  /-- the record of the run that is about to end -/
  | adopted (record : Nat)
  | refused
  deriving DecidableEq

/-- What a frame that no turn waits for meets outside the runtime. -/
structure PeerEnv where
  admits : Bool := true
  claim : PeerClaim := .created 0
  now : Nat := 0
  deriving DecidableEq

/-- The outcome of `_observe_unsolicited`. -/
structure Observation where
  runtime : SessionRuntime
  handled : Bool
  /-- The event recorded for the frame, with its record. -/
  recorded : Option (Nat × String) := none

/-- The unbinding part of `bridge.unbind(generation)`, which does not await. -/
def PermissionBridge.unbindNow (b : PermissionBridge) (generation : Nat) : PermissionBridge :=
  if generation = b.generation then b.unbound else b

namespace SessionRuntime

def evictable (r : SessionRuntime) : Bool := r.state = .idle && r.activeQueue.isNone

def healthy (r : SessionRuntime) : Bool := r.healthyFlag && r.state ≠ .dead

/-- `SessionRuntime.__init__` -/
def create (key : String) (options : RuntimeOptions) (now : Nat) : SessionRuntime :=
  { key := key
    sessionId := if "pending:".toList.isPrefixOf key.toList then none else some key
    fingerprint := options.fingerprint
    writeScope := options.writeScope
    lastUsed := now }

/-- `self._healthy = False; self.state = "dead"` -/
def poison (r : SessionRuntime) : SessionRuntime := { r with healthyFlag := false, state := .dead }

/-- `connect` after the CLI is connected. -/
def connected (r : SessionRuntime) (now : Nat) : SessionRuntime :=
  { r with receiver := .live, state := .idle, lastUsed := now }

/-- The first test of `start_turn`, made again after the mode switch. -/
def startBlocked (r : SessionRuntime) : Bool :=
  !(r.state = .idle || r.state = .starting) || r.activeQueue.isSome

def setPermissionMode (r : SessionRuntime) (mode : PermissionMode) : SessionRuntime :=
  { r with cliMode := mode, currentPermissionMode := mode }

/-- The end of `start_turn`. A bridge that is bound makes `bind` raise, with the queue in place. -/
def ownTurn (r : SessionRuntime) (turn : Nat) (binding : RunBinding) (mode : PermissionMode)
    (now : Nat) : SessionRuntime :=
  { r with
    activeQueue := some turn
    turnWriteCapable := mode ≠ idlePermissionMode
    bridge := r.bridge.bind binding
    bridgeGeneration :=
      if r.bridge.callback.isNone then some (r.bridge.generation + 1) else r.bridgeGeneration
    state := if r.bridge.callback.isNone then .running else r.state
    lastUsed := if r.bridge.callback.isNone then now else r.lastUsed }

/-- The runtime forgets the generation of its binding and `unbind` runs up to its first await. -/
def dropBinding (r : SessionRuntime) : SessionRuntime :=
  match r.bridgeGeneration with
  | none => r
  | some g => { r with bridgeGeneration := none, bridge := r.bridge.unbindNow g }

/-- The result of that `unbind`, when it does not have to wait for callbacks. -/
def unbindResult (r : SessionRuntime) : Option Bool :=
  match r.bridgeGeneration with
  | none => some true
  | some g =>
    if g ≠ r.bridge.generation then some false
    else if r.bridge.inflightZero then some true else none

/-- The runtime turns over to the peer run of `record`. -/
def openPeer (r : SessionRuntime) (record : Nat) : SessionRuntime :=
  { r with
    unsolicitedActive := true
    state := .draining
    unsolicitedRecord := some record
    turnWriteCapable := false }

/-- The `result` branch of `_observe_unsolicited`. -/
def closePeer (r : SessionRuntime) (now : Nat) : SessionRuntime :=
  { r with
    unsolicitedActive := false
    state := if r.healthyFlag then .idle else .dead
    lastUsed := now
    unsolicitedRecord := none }

def peerEvent (f : Frame) : Option String :=
  if f.type = .queueOperation then some "queue_operation" else f.eventLabel

/-- `_observe_unsolicited` inside a peer turn. -/
def observePeer (r : SessionRuntime) (f : Frame) (now : Nat) : Observation :=
  match r.unsolicitedRecord with
  | none => { runtime := r, handled := false }
  | some record =>
    { runtime := if f.type = .result then r.closePeer now else r
      handled := true
      recorded := (peerEvent f).map (record, ·) }

def observeUnsolicited (r : SessionRuntime) (env : PeerEnv) (f : Frame) : Observation :=
  if f.skipped then { runtime := r, handled := true }
  else if r.unsolicitedActive then r.observePeer f env.now
  else if f.opensPeer then
    if env.admits then
      match env.claim with
      | .created record | .adopted record => (r.openPeer record).observePeer f env.now
      | .refused => { runtime := r.poison, handled := false }
    else { runtime := r.poison, handled := false }
  else { runtime := r, handled := !f.substantive }

/-- The unread frames of a finished turn, observed in order; whether all of them were handled. -/
def observeUnread (r : SessionRuntime) : List (PeerEnv × Frame) → SessionRuntime × Bool
  | [] => (r, true)
  | (env, f) :: rest =>
    let o := r.observeUnsolicited env f
    let rest := o.runtime.observeUnread rest
    (rest.1, o.handled && rest.2)

def releaseQueue (r : SessionRuntime) : SessionRuntime :=
  { r with activeQueue := none, turnWriteCapable := false }

/-- The last branch of `finish_turn`. -/
def settle (r : SessionRuntime) (tainted keepWarm : Bool) (now : Nat) : SessionRuntime :=
  { r with
    healthyFlag := r.healthyFlag && !tainted
    state :=
      if tainted then .dead
      else if keepWarm && !r.unsolicitedActive then .idle else r.state
    lastUsed := now }

/-- `finish_turn` after the security of the turn is quiesced. -/
def finishTurn (r : SessionRuntime) (unread : List (PeerEnv × Frame)) (tainted keepWarm : Bool)
    (now : Nat) : SessionRuntime :=
  let observed := r.releaseQueue.observeUnread unread
  observed.1.settle (tainted || !observed.2) keepWarm now

def scheduleRetirement (r : SessionRuntime) : SessionRuntime :=
  if r.resident && r.retireTask = .absent then { r with retireTask := .scheduled } else r

/-- The `finally` block of `_receiver_loop`. -/
def receiverStopped (r : SessionRuntime) : SessionRuntime :=
  let r := { r with receiver := .ended }
  let r := if r.state = .closing || r.state = .dead then r else r.poison
  if r.state = .dead then r.scheduleRetirement else r

/-- `_receiver_loop` reads a frame while no turn is active. -/
def receiveIdle (r : SessionRuntime) (env : PeerEnv) (f : Frame) : SessionRuntime :=
  let o := r.observeUnsolicited env f
  if o.handled then o.runtime else o.runtime.poison.receiverStopped

/-- The first caller of `close` creates the task. -/
def requestClose (r : SessionRuntime) : SessionRuntime :=
  if r.closeTask = .absent then { r with closeTask := .scheduled } else r

def cancelReceiver (r : SessionRuntime) : SessionRuntime :=
  { r with
    receiver := if r.receiver = .live then .cancelled else r.receiver
    closeTask := .disconnecting }

def enterClosing (r : SessionRuntime) : SessionRuntime :=
  { r with
    unsolicitedActive := false
    unsolicitedRecord := none
    state := .closing
    closeTask := .unbinding }

/-- The first section of `_close_physical`. -/
def beginClose (r : SessionRuntime) : SessionRuntime :=
  if r.unbindResult.isNone then r.dropBinding.enterClosing
  else r.dropBinding.enterClosing.cancelReceiver

def closeJoined (r : SessionRuntime) : SessionRuntime :=
  { r with
    activeQueue := none
    turnWriteCapable := false
    healthyFlag := false
    state := .dead
    closeTask := .done }

end SessionRuntime

/-- A section that a runtime goes through without the call that owns its turn. -/
inductive RuntimeEvent
  | toolCall
  | toolReturn
  | closeBegins
  | closeUnbound (timedOut : Bool)
  | closeDisconnected
  | closeJoined
  | frame (env : PeerEnv) (f : Frame)
  | receiverFails
  | receiverEnds
  deriving DecidableEq

namespace SessionRuntime

def setBridge (r : SessionRuntime) (b : PermissionBridge) : SessionRuntime := { r with bridge := b }

def setCloseTask (r : SessionRuntime) (task : CloseTask) : SessionRuntime :=
  { r with closeTask := task }

def evolve (r : SessionRuntime) : RuntimeEvent → Option SessionRuntime
  | .toolCall => some (if r.bridge.callback.isSome then r.setBridge r.bridge.enter else r)
  | .toolReturn => if 0 < r.bridge.inflight then some (r.setBridge r.bridge.leave) else none
  | .closeBegins => if r.closeTask = .scheduled then some r.beginClose else none
  | .closeUnbound timedOut =>
    if r.closeTask = .unbinding ∧ (r.bridge.inflightZero || timedOut) then some r.cancelReceiver
    else none
  | .closeDisconnected =>
    if r.closeTask = .disconnecting then some (r.setCloseTask .joining) else none
  | .closeJoined =>
    if r.closeTask = .joining ∧ (r.receiver = .absent ∨ r.receiver = .ended) then
      some r.closeJoined
    else none
  | .frame env f =>
    if r.receiver = .live then
      -- an active turn gets the frame through its queue
      some (if r.activeQueue.isSome then r else r.receiveIdle env f)
    else none
  | .receiverFails => if r.receiver = .live then some r.poison.receiverStopped else none
  | .receiverEnds =>
    if r.receiver = .live ∨ r.receiver = .cancelled then some r.receiverStopped else none

/-- What a section makes of the runtime, branch by branch. -/
inductive Becomes (r : SessionRuntime) : RuntimeEvent → SessionRuntime → Prop
  | entered : Becomes r .toolCall (r.setBridge r.bridge.enter)
  | unheard : Becomes r .toolCall r
  | toolReturn : Becomes r .toolReturn (r.setBridge r.bridge.leave)
  | closeBegins (hc : r.closeTask = .scheduled) : Becomes r .closeBegins r.beginClose
  | closeUnbound (timedOut) (hc : r.closeTask = .unbinding) :
      Becomes r (.closeUnbound timedOut) r.cancelReceiver
  | closeDisconnected (hc : r.closeTask = .disconnecting) :
      Becomes r .closeDisconnected (r.setCloseTask .joining)
  | closeJoined (hc : r.closeTask = .joining) (hr : r.receiver = .absent ∨ r.receiver = .ended) :
      Becomes r .closeJoined r.closeJoined
  | queued (env f) (hq : r.activeQueue.isSome = true) : Becomes r (.frame env f) r
  | frame (env f) (hl : r.receiver = .live) (hq : r.activeQueue = none) :
      Becomes r (.frame env f) (r.receiveIdle env f)
  | receiverFails (hl : r.receiver = .live) : Becomes r .receiverFails r.poison.receiverStopped
  | receiverEnds (hl : r.receiver = .live ∨ r.receiver = .cancelled) :
      Becomes r .receiverEnds r.receiverStopped

theorem becomes_of_evolve {r r' : SessionRuntime} {e : RuntimeEvent} (h : r.evolve e = some r') :
    r.Becomes e r' := by
  cases e with
  | toolCall =>
    cases h
    split
    · exact .entered
    · exact .unheard
  | frame env f =>
    simp only [evolve] at h
    split at h <;> cases h
    rename_i hl
    split
    · rename_i hq
      exact .queued env f hq
    · rename_i hq
      exact .frame env f hl (by simpa using hq)
  | toolReturn | closeBegins | closeUnbound | closeDisconnected | closeJoined | receiverFails | receiverEnds =>
    simp only [evolve] at h
    split at h <;> cases h
    rename_i hc
    constructor <;> simp [hc]

/-- Observing frames turns a runtime over to a peer and back, or poisons it, and nothing else. -/
structure Observes (r r' : SessionRuntime) : Prop where
  fixed : r' = { r with
    state := r'.state
    lastUsed := r'.lastUsed
    healthyFlag := r'.healthyFlag
    unsolicitedActive := r'.unsolicitedActive
    unsolicitedRecord := r'.unsolicitedRecord
    turnWriteCapable := r'.turnWriteCapable }
  flag : r'.healthyFlag = true → r.healthyFlag = true
  state : r'.state = r.state ∨ r'.state = .draining ∨ r'.state = .idle ∨ r'.state = .dead
  dead : r'.state = .dead → r.state = .dead ∨ r'.healthyFlag = false
  writes : r'.turnWriteCapable = true → r.turnWriteCapable = true

private theorem Observes.refl (r : SessionRuntime) : Observes r r where
  fixed := rfl
  flag := id
  state := .inl rfl
  dead := .inl
  writes := id

private theorem Observes.trans {r r' r'' : SessionRuntime} (h : Observes r r') (h' : Observes r' r'') :
    Observes r r'' where
  fixed := by rw [h'.fixed, h.fixed]
  flag hf := h.flag (h'.flag hf)
  state := by
    rcases h'.state with hs | hs
    · rw [hs]
      exact h.state
    · exact .inr hs
  dead hd := by
    rcases h'.dead hd with hd | hf
    · rcases h.dead hd with hd | hf
      · exact .inl hd
      · right
        by_contra hn
        have := h'.flag (by simpa using hn)
        simp [hf] at this
    · exact .inr hf
  writes hw := h.writes (h'.writes hw)

private theorem observes_poison (r : SessionRuntime) : Observes r r.poison where
  fixed := rfl
  flag hf := by simp [poison] at hf
  state := .inr (.inr (.inr rfl))
  dead _ := .inr rfl
  writes := id

private theorem observes_openPeer (r : SessionRuntime) (record : Nat) : Observes r (r.openPeer record) where
  fixed := rfl
  flag := id
  state := .inr (.inl rfl)
  dead hd := by simp [openPeer] at hd
  writes hw := by simp [openPeer] at hw

private theorem observes_closePeer (r : SessionRuntime) (now : Nat) : Observes r (r.closePeer now) where
  fixed := rfl
  flag := id
  state := by
    cases hf : r.healthyFlag <;> simp [closePeer, hf]
  dead hd := by
    cases hf : r.healthyFlag <;> simp_all [closePeer]
  writes := id

private theorem observePeer_cases (r : SessionRuntime) (f : Frame) (now : Nat) : (r.observePeer f now).runtime = r ∨
      f.type = .result ∧ (r.observePeer f now).runtime = r.closePeer now := by
  unfold observePeer
  split
  · exact .inl rfl
  · by_cases hr : f.type = .result
    · simp [hr]
    · simp [hr]

def completesPeer (r : SessionRuntime) (f : Frame) : Bool :=
  f.type = .result && (r.unsolicitedActive || f.opensPeer)

theorem observe_cases (r : SessionRuntime) (env : PeerEnv) (f : Frame) :
    (r.observeUnsolicited env f).runtime = r ∨
    (r.observeUnsolicited env f).runtime = r.poison ∨
    (∃ record, env.admits = true ∧ (r.observeUnsolicited env f).runtime = r.openPeer record) ∨
    r.completesPeer f = true ∧ ((r.observeUnsolicited env f).runtime = r.closePeer env.now ∨
        ∃ record, (r.observeUnsolicited env f).runtime = (r.openPeer record).closePeer env.now) := by
  simp only [observeUnsolicited]
  split
  · exact .inl rfl
  split
  · rename_i ha
    rcases observePeer_cases r f env.now with h | ⟨ht, h⟩
    · exact .inl h
    · exact .inr (.inr (.inr ⟨by simp [completesPeer, ht, ha], .inl h⟩))
  split
  · rename_i ho
    have hopen (record : Nat) (hadmits : env.admits = true) : (∃ record', env.admits = true ∧
          ((r.openPeer record).observePeer f env.now).runtime = r.openPeer record') ∨
        r.completesPeer f = true ∧ (((r.openPeer record).observePeer f env.now).runtime = r.closePeer env.now ∨
            ∃ record', ((r.openPeer record).observePeer f env.now).runtime =
              (r.openPeer record').closePeer env.now) := by
      rcases observePeer_cases (r.openPeer record) f env.now with h | ⟨ht, h⟩
      · exact .inl ⟨record, hadmits, h⟩
      · exact .inr ⟨by simp [completesPeer, ht, ho], .inr ⟨record, h⟩⟩
    split
    · rename_i hadmits
      split
      · exact .inr (.inr (hopen _ hadmits))
      · exact .inr (.inr (hopen _ hadmits))
      · exact .inr (.inl rfl)
    · exact .inr (.inl rfl)
  · exact .inl rfl

theorem observes_observeUnsolicited (r : SessionRuntime) (env : PeerEnv) (f : Frame) :
    Observes r (r.observeUnsolicited env f).runtime := by
  obtain h | h | ⟨record, -, h⟩ | ⟨-, h | ⟨record, h⟩⟩ := observe_cases r env f
  · rw [h]
    exact .refl r
  · rw [h]
    exact observes_poison r
  · rw [h]
    exact observes_openPeer r record
  · rw [h]
    exact observes_closePeer r env.now
  · rw [h]
    exact (observes_openPeer r record).trans (observes_closePeer _ env.now)

theorem observes_observeUnread (r : SessionRuntime) (unread : List (PeerEnv × Frame)) :
    Observes r (r.observeUnread unread).1 := by
  induction unread generalizing r with
  | nil => exact .refl r
  | cons head rest ih =>
    obtain ⟨env, f⟩ := head
    exact (observes_observeUnsolicited r env f).trans (ih _)

private theorem scheduleRetirement_eq (r : SessionRuntime) :
    r.scheduleRetirement = { r with retireTask := r.scheduleRetirement.retireTask } := by
  unfold scheduleRetirement
  split <;> rfl

theorem receiverStopped_eq (r : SessionRuntime) : r.receiverStopped = { r with
      receiver := .ended
      state := if r.state = .closing then .closing else .dead
      healthyFlag := r.healthyFlag && (r.state = .closing || r.state = .dead)
      retireTask := r.receiverStopped.retireTask } := by
  unfold receiverStopped
  cases r.state <;> simp [poison] <;> exact scheduleRetirement_eq _

theorem receiverStopped_queue (r : SessionRuntime) : r.receiverStopped.activeQueue = r.activeQueue := by
  rw [receiverStopped_eq]

theorem receiverStopped_flag (r : SessionRuntime) : r.receiverStopped.healthyFlag =
    (r.healthyFlag && (r.state = .closing || r.state = .dead)) := by
  rw [receiverStopped_eq]

theorem dropBinding_eq (r : SessionRuntime) : r.dropBinding = { r with
    bridgeGeneration := none, bridge := r.dropBinding.bridge } := by
  unfold dropBinding
  split
  · rename_i hg
    simp [← hg]
  · rfl

theorem requestClose_eq (r : SessionRuntime) :
    r.requestClose = { r with closeTask := r.requestClose.closeTask } := by
  unfold requestClose
  split <;> rfl

theorem receiveIdle_keeps (r : SessionRuntime) (env : PeerEnv) (f : Frame) :
    ((r.receiveIdle env f).healthyFlag = true → r.healthyFlag = true) ∧
      (r.receiveIdle env f).activeQueue = r.activeQueue ∧
      (r.receiveIdle env f).bridge = r.bridge := by
  have ho := observes_observeUnsolicited r env f
  have hfix := ho.fixed
  simp only [receiveIdle]
  split
  · refine ⟨ho.flag, ?_, ?_⟩
    · rw [hfix]
    · rw [hfix]
  · rw [receiverStopped_eq]
    refine ⟨fun hf => by simp [poison] at hf, ?_, ?_⟩
    · simp only [poison]
      rw [hfix]
    · simp only [poison]
      rw [hfix]

theorem beginClose_keeps (r : SessionRuntime) :
    r.beginClose.healthyFlag = r.healthyFlag ∧ r.beginClose.activeQueue = r.activeQueue ∧
      r.beginClose.bridge = r.dropBinding.bridge := by
  have heq := r.dropBinding_eq
  have hf : r.dropBinding.healthyFlag = r.healthyFlag := by rw [heq]
  have hq : r.dropBinding.activeQueue = r.activeQueue := by rw [heq]
  unfold beginClose
  split
  · exact ⟨hf, hq, rfl⟩
  · exact ⟨hf, hq, rfl⟩

theorem finishTurn_eq (r : SessionRuntime) (unread : List (PeerEnv × Frame))
    (tainted keepWarm : Bool) (now : Nat) :
    r.finishTurn unread tainted keepWarm now = { r with
      activeQueue := none
      state := (r.finishTurn unread tainted keepWarm now).state
      lastUsed := now
      healthyFlag := (r.finishTurn unread tainted keepWarm now).healthyFlag
      unsolicitedActive := (r.finishTurn unread tainted keepWarm now).unsolicitedActive
      unsolicitedRecord := (r.finishTurn unread tainted keepWarm now).unsolicitedRecord
      turnWriteCapable := (r.finishTurn unread tainted keepWarm now).turnWriteCapable } := by
  have hfix := (observes_observeUnread r.releaseQueue unread).fixed
  simp only [finishTurn, settle]
  rw [hfix]
  rfl

theorem finishTurn_flag {r : SessionRuntime} {unread : List (PeerEnv × Frame)}
    {tainted keepWarm : Bool} {now : Nat}
    (hf : (r.finishTurn unread tainted keepWarm now).healthyFlag = true) :
    r.healthyFlag = true ∧ tainted = false ∧ (r.releaseQueue.observeUnread unread).2 = true := by
  simp only [finishTurn, settle, Bool.and_eq_true, Bool.not_eq_true', Bool.or_eq_false_iff] at hf
  exact ⟨(observes_observeUnread r.releaseQueue unread).flag hf.1, hf.2.1, by simpa using hf.2.2⟩

end SessionRuntime

end PrivaCloud.AgentRunner
