import PrivaCloud.AgentRunner.Runtime.FrameFlow

/-!
# Frames are conserved

On a healthy runtime the frames that the receiver read are the frames of the log followed by those
that still wait, in the order in which they arrived.
-/

namespace PrivaCloud.AgentRunner

open Framework

def LogEntry.Sound (e : LogEntry) : Prop :=
  match e.disposal with
  | .delivered turn => e.read.turn = some turn
  | .recorded _ label => SessionRuntime.peerEvent e.read.frame = some label
  | .unlabelled => SessionRuntime.peerEvent e.read.frame = none
  | .ignored => e.read.frame.opensPeer = false ∧ e.read.frame.substantive = false
  | .skipped => e.read.frame.skipped = true

variable {r : SessionRuntime} {f : Frame}

namespace SessionRuntime

private theorem recorded_observePeer {now : Nat}
    (hh : (r.observePeer f now).handled = true) :
    (r.observePeer f now).recorded.map (·.2) = peerEvent f := by
  unfold observePeer at hh ⊢
  split at hh
  · cases hh
  · cases peerEvent f <;> rfl

private theorem recorded_of_peer {env : PeerEnv}
    (hsk : f.skipped = false) (hp : (r.unsolicitedActive || f.opensPeer) = true)
    (hh : (r.observeUnsolicited env f).handled = true) :
    (r.observeUnsolicited env f).recorded.map (·.2) = peerEvent f := by
  cases ha : r.unsolicitedActive with
  | true =>
    have he : r.observeUnsolicited env f = r.observePeer f env.now := by
      simp [observeUnsolicited, hsk, ha]
    rw [he] at hh ⊢
    exact recorded_observePeer hh
  | false =>
    have ho : f.opensPeer = true := by simpa [ha] using hp
    cases hadmits : env.admits with
    | false => simp [observeUnsolicited, hsk, ha, ho, hadmits] at hh
    | true =>
      have hclaim (record : Nat) (he : r.observeUnsolicited env f = (r.openPeer record).observePeer f env.now) :
          (r.observeUnsolicited env f).recorded.map (·.2) = peerEvent f := by
        rw [he] at hh ⊢
        exact recorded_observePeer hh
      cases hc : env.claim with
      | created record =>
        apply hclaim record
        simp [observeUnsolicited, hsk, ha, ho, hadmits, hc]
      | adopted record =>
        apply hclaim record
        simp [observeUnsolicited, hsk, ha, ho, hadmits, hc]
      | refused => simp [observeUnsolicited, hsk, ha, ho, hadmits, hc] at hh

private theorem ignored_outside_peer (env : PeerEnv)
    (hsk : f.skipped = false) (hp : (r.unsolicitedActive || f.opensPeer) = false) :
    (r.observeUnsolicited env f).recorded = none ∧ (r.observeUnsolicited env f).handled = !f.substantive := by
  obtain ⟨ha, ho⟩ := Bool.or_eq_false_iff.mp hp
  simp [observeUnsolicited, hsk, ha, ho]

private theorem disposal_sound {env : PeerEnv} {turn : Option Nat}
    (hh : (r.observeUnsolicited env f).handled = true) :
    LogEntry.Sound ⟨⟨f, turn⟩, r.disposal env f⟩ := by
  unfold disposal
  cases hsk : f.skipped with
  | true => simp [observeUnsolicited, hsk, LogEntry.Sound]
  | false =>
    cases hp : (r.unsolicitedActive || f.opensPeer) with
    | true =>
      have hr := recorded_of_peer hsk hp hh
      cases ho : (r.observeUnsolicited env f).recorded with
      | none => simpa [LogEntry.Sound, ho] using hr.symm
      | some event => simpa [LogEntry.Sound, ho] using hr.symm
    | false =>
      obtain ⟨hr, hs⟩ := ignored_outside_peer env hsk hp
      rw [hs] at hh
      have ho : f.opensPeer = false := (Bool.or_eq_false_iff.mp hp).2
      simpa [LogEntry.Sound, hr, ho] using hh

private theorem unreadLog_sound {turn : Option Nat}
    {unread : List (PeerEnv × Frame)} (hh : (r.observeUnread unread).2 = true) :
    ∀ e ∈ r.unreadLog turn unread, e.Sound := by
  induction unread generalizing r with
  | nil => simp [unreadLog]
  | cons head rest ih =>
    obtain ⟨env, f⟩ := head
    simp only [observeUnread, Bool.and_eq_true] at hh
    intro e he
    rcases List.mem_cons.mp he with rfl | he
    · exact disposal_sound hh.1
    · exact ih hh.2 e he

private theorem unreadLog_read (r : SessionRuntime) (turn : Option Nat) (unread : List (PeerEnv × Frame)) :
    (r.unreadLog turn unread).map (·.read) = unread.map fun p => ⟨p.2, turn⟩ := by
  induction unread generalizing r with
  | nil => rfl
  | cons head rest ih => simp [unreadLog, ih]

end SessionRuntime

namespace FlowSystem

/-- The frames of the active turn that nobody has taken yet, oldest first. -/
def waitingFrames (s : FlowSystem) : List Frame :=
  s.deferred ++
    (match s.runtime.activeQueue with
      | none => []
      | some turn => (s.queues turn).frames) ++
    (s.putting.map (·.frame)).toList

def waiting (s : FlowSystem) : List ReadFrame :=
  s.waitingFrames.map fun f => ⟨f, s.runtime.activeQueue⟩

def counts (p : ReadFrame) : Bool := !p.frame.skipped

/-- Every frame that counts is disposed of once or waits, in the order of arrival. -/
structure Conserved (s : FlowSystem) : Prop where
  order : (s.log.map (·.read) ++ s.waiting).filter counts = s.arrived.filter counts
  sound : ∀ e ∈ s.log, e.Sound

structure Placed (s : FlowSystem) : Prop where
  queues : ∀ turn, s.runtime.activeQueue ≠ some turn → (s.queues turn).frames = []
  putting : ∀ p, s.putting = some p → s.runtime.activeQueue = some p.turn
  idle : s.runtime.activeQueue = none → s.deferred = []
  short : s.deferred.length ≤ 1
  tail : ∀ it, s.iterator = some it → it.resultSeen = true → s.deferred = []
  iterator : ∀ it, s.iterator = some it → s.deferred ≠ [] → s.runtime.activeQueue = some it.turn

structure Flowing (s : FlowSystem) : Prop where
  placed : s.Placed
  conserved : s.runtime.healthyFlag = true → s.Conserved

@[simp] theorem frames_enqueue (q : TurnQueue) (f : Frame) (size : Nat) :
    TurnQueue.frames (q.enqueue (.frame f) size) = TurnQueue.frames q ++ [f] := by
  simp [TurnQueue.frames, QueueItem.frame?]

@[simp] theorem frames_empty : TurnQueue.frames TurnQueue.empty = [] := rfl

@[simp] theorem frames_drained (q : TurnQueue) : TurnQueue.frames q.drained = [] := rfl

private theorem frames_getNowait {q q' : TurnQueue} {item : QueueItem} (h : q.getNowait = some (item, q')) :
    TurnQueue.frames q = item.frame?.toList ++ TurnQueue.frames q' := by
  simp only [TurnQueue.frames, BoundedAsyncQueue.contents_getNowait h, List.filterMap_cons]
  cases item <;> rfl

private theorem flowing_init (key : String) (options : RuntimeOptions) (created now : Nat) :
    (init key options created now).Flowing := by
  constructor
  · constructor
    · intro turn _
      exact frames_empty
    · intro p hp
      cases hp
    · intro _
      rfl
    · exact Nat.zero_le 1
    · intro it hi
      cases hi
    · intro it hi
      cases hi
  · intro _
    constructor
    · rfl
    · intro e he
      cases he

variable {s s' : FlowSystem}

private theorem Flowing.keep (h : s.Flowing) (hq : s'.runtime.activeQueue = s.runtime.activeQueue)
    (hf : s'.runtime.healthyFlag = true → s.runtime.healthyFlag = true)
    (hqs : ∀ turn, (s'.queues turn).frames = (s.queues turn).frames)
    (hd : s'.deferred = s.deferred) (hp : s'.putting = s.putting)
    (hi : s'.iterator = s.iterator ∨ s'.iterator = none)
    (ha : s'.arrived = s.arrived) (hl : s'.log = s.log) : s'.Flowing where
  placed := by
    have hit {it : TurnIterator} (hs : s'.iterator = some it) : s.iterator = some it := by
      rcases hi with hi | hi
      · rw [← hi]
        exact hs
      · rw [hi] at hs
        cases hs
    constructor
    · intro turn hn
      rw [hqs]
      exact h.placed.queues turn (by rwa [hq] at hn)
    · intro p hs
      rw [hq]
      exact h.placed.putting p (by rwa [hp] at hs)
    · rw [hq, hd]
      exact h.placed.idle
    · rw [hd]
      exact h.placed.short
    · intro it hs
      rw [hd]
      exact h.placed.tail it (hit hs)
    · intro it hs
      rw [hd, hq]
      exact h.placed.iterator it (hit hs)
  conserved hf' := by
    have hc := h.conserved (hf hf')
    have hw : s'.waiting = s.waiting := by
      simp only [waiting, waitingFrames, hq, hd, hp]
      cases s.runtime.activeQueue with
      | none => rfl
      | some turn => simp only [hqs]
    constructor
    · rw [hl, hw, ha]
      exact hc.order
    · rw [hl]
      exact hc.sound

private theorem Flowing.setRuntime (h : s.Flowing)
    (hq : r.activeQueue = s.runtime.activeQueue)
    (hf : r.healthyFlag = true → s.runtime.healthyFlag = true) : (s.setRuntime r).Flowing :=
  h.keep hq hf (fun _ => rfl) rfl rfl (.inl rfl) rfl rfl

variable {turn : Nat}

private theorem Placed.setQueue (h : s.Placed)
    (ha : s.runtime.activeQueue = some turn) (q : TurnQueue) : (s.setQueue turn q).Placed where
  queues t hn := by
    have hne : t ≠ turn := by
      rintro rfl
      exact hn ha
    simpa [FlowSystem.setQueue, hne] using h.queues t hn
  putting := h.putting
  idle := h.idle
  short := h.short
  tail := h.tail
  iterator := h.iterator

private theorem Placed.setRuntime (h : s.Placed)
    (hq : r.activeQueue = s.runtime.activeQueue) : (s.setRuntime r).Placed := by
  constructor
  · intro turn hn
    exact h.queues turn (by rwa [← hq])
  · intro p hp
    exact hq.trans (h.putting p hp)
  · intro ha
    exact h.idle (hq.symm.trans ha)
  · exact h.short
  · exact h.tail
  · intro it hi hd
    exact hq.trans (h.iterator it hi hd)

private theorem Placed.notify (h : s.Placed) (nonretry : Bool) (size : Nat) :
    (s.notify nonretry size).Placed := by
  unfold FlowSystem.notify
  split
  · exact h
  · rename_i ha
    split
    · exact h.setQueue ha _
    · exact h

private theorem notify_runtime (s : FlowSystem) (nonretry : Bool) (size : Nat) :
    (s.notify nonretry size).runtime = s.runtime := by
  unfold notify
  split
  · rfl
  · split <;> rfl

private theorem Flowing.receiverFails (h : s.Placed) (nonretry : Bool) (size : Nat) :
    (s.receiverFails nonretry size).Flowing where
  placed := by
    apply (h.notify nonretry size).setRuntime
    rw [SessionRuntime.receiverStopped_queue, notify_runtime]
    rfl
  conserved hf := by
    rw [FlowSystem.receiverFails, FlowSystem.setRuntime, SessionRuntime.receiverStopped_flag] at hf
    cases hf

private theorem Placed.arrive (h : s.Placed) (f : Frame) : (s.arrive f).Placed :=
  ⟨h.queues, h.putting, h.idle, h.short, h.tail, h.iterator⟩

private theorem Conserved.join (h : s.Conserved)
    (hw : s'.waiting = s.waiting ++ [⟨f, s.runtime.activeQueue⟩])
    (ha : s'.arrived = s.arrived ++ [⟨f, s.runtime.activeQueue⟩]) (hl : s'.log = s.log) :
    s'.Conserved where
  order := by
    have ho := congrArg (· ++ List.filter counts [⟨f, s.runtime.activeQueue⟩]) h.order
    simp only [← List.filter_append, List.append_assoc] at ho
    rw [hl, hw, ha]
    exact ho
  sound := by
    rw [hl]
    exact h.sound

private theorem Flowing.putFrame (h : s.Flowing)
    (ha : s.runtime.activeQueue = some turn) (hp : s.putting = none) (f : Frame) (size : Nat) :
    ((s.arrive f).putFrame turn f size).Flowing := by
  have hplaced := h.placed.arrive f
  unfold FlowSystem.putFrame
  split
  · exact .receiverFails hplaced true 1
  · rename_i n _
    split
    · constructor
      · exact hplaced.setQueue ha _
      · intro hf
        apply Conserved.join (h.conserved hf) (f := f)
        · simp [waiting, waitingFrames, FlowSystem.setQueue, arrive, ha, hp]
        · simp [FlowSystem.setQueue, arrive]
        · rfl
    · constructor
      · refine ⟨hplaced.queues, ?_, hplaced.idle, hplaced.short, hplaced.tail, hplaced.iterator⟩
        intro p hs
        cases hs
        exact ha
      · intro hf
        apply Conserved.join (h.conserved hf) (f := f)
        · simp [waiting, waitingFrames, arrive, ha, hp]
        · simp [arrive]
        · rfl

private theorem Flowing.observe (h : s.Flowing) (ha : s.runtime.activeQueue = none)
    (hp : s.putting = none) (f : Frame) (env : PeerEnv) : ((s.arrive f).observe f env).Flowing := by
  obtain ⟨hflag, hqueue, -⟩ := s.runtime.receiveIdle_keeps env f
  have hq : ((s.arrive f).observe f env).runtime.activeQueue = none := by
    rw [← ha]
    exact hqueue
  have hd := h.placed.idle ha
  constructor
  · constructor
    · intro turn _
      exact h.placed.queues turn (by simp [ha])
    · intro p hs
      exact absurd (hp.symm.trans hs) nofun
    · intro _
      exact hd
    · exact h.placed.short
    · exact h.placed.tail
    · intro it _ hne
      exact absurd hd hne
  · intro hf
    have hc := h.conserved (hflag hf)
    have hnone : s.waiting = [] := by simp [waiting, waitingFrames, ha, hp, hd]
    have hnone' : ((s.arrive f).observe f env).waiting = [] := by
      simp only [waiting, waitingFrames, hq]
      simp [FlowSystem.observe, arrive, hp, hd]
    constructor
    · have ho := hc.order
      rw [hnone, List.append_nil] at ho
      rw [hnone', List.append_nil]
      simp [FlowSystem.observe, arrive, ha, List.filter_append, ho]
    · intro e he
      simp only [FlowSystem.observe, arrive, List.concat_eq_append, List.mem_append, List.mem_singleton] at he
      rcases he with he | rfl
      · exact hc.sound e he
      · apply SessionRuntime.disposal_sound
        -- an unhandled frame would have poisoned the runtime
        by_contra hn
        have hn : (s.runtime.observeUnsolicited env f).handled = false := by simpa using hn
        simp [FlowSystem.observe, arrive, SessionRuntime.receiveIdle, hn,
          SessionRuntime.receiverStopped_flag, SessionRuntime.poison] at hf

private theorem Flowing.read (h : s.Flowing) (hp : s.putting = none) (f : Frame)
    (size : Nat) (env : PeerEnv) : (s.read f size env).Flowing := by
  unfold FlowSystem.read
  split
  · rename_i turn ha
    exact h.putFrame ha hp f size
  · rename_i ha
    exact h.observe ha hp f env

private theorem Flowing.putResumes (h : s.Flowing) {p : Putting} (hp : s.putting = some p) :
    ({ s with putting := none }.setQueue p.turn
      ((s.queues p.turn).enqueue (.frame p.frame) p.size)).Flowing := by
  have ha := h.placed.putting p hp
  have hplaced : { s with putting := none }.Placed :=
    ⟨h.placed.queues, nofun, h.placed.idle, h.placed.short, h.placed.tail, h.placed.iterator⟩
  constructor
  · exact hplaced.setQueue ha _
  · intro hf
    have hc := h.conserved hf
    have hw : ({ s with putting := none }.setQueue p.turn
        ((s.queues p.turn).enqueue (.frame p.frame) p.size)).waiting = s.waiting := by
      simp [waiting, waitingFrames, FlowSystem.setQueue, ha, hp]
    constructor
    · rw [hw]
      exact hc.order
    · exact hc.sound

private theorem Conserved.deliver (h : s.Conserved)
    (hw : s.waiting = ⟨f, some turn⟩ :: s'.waiting) (ha : s'.arrived = s.arrived)
    (hl : s'.log = s.log.concat ⟨⟨f, some turn⟩, .delivered turn⟩) : s'.Conserved where
  order := by
    have ho := h.order
    rw [hw] at ho
    simpa [hl, ha] using ho
  sound := by
    intro e he
    rw [hl, List.concat_eq_append, List.mem_append, List.mem_singleton] at he
    rcases he with he | rfl
    · exact h.sound e he
    · rfl

private theorem Conserved.wait (h : s.Conserved) (hw : s'.waiting = s.waiting)
    (ha : s'.arrived = s.arrived) (hl : s'.log = s.log) : s'.Conserved where
  order := by
    rw [hw, ha, hl]
    exact h.order
  sound := by
    rw [hl]
    exact h.sound

private theorem Flowing.takeDeferred (h : s.Flowing) {it : TurnIterator}
    (hi : s.iterator = some it) {rest : List Frame} (hd : s.deferred = f :: rest) :
    ({ s with deferred := rest }.consume it (.frame f)).Flowing := by
  have hrest : rest = [] := by
    have := h.placed.short
    rw [hd] at this
    simpa using this
  subst hrest
  have ha := h.placed.iterator it hi (by simp [hd])
  have hseen : it.resultSeen = false := by
    by_contra hs
    have := h.placed.tail it hi (by simpa using hs)
    simp [hd] at this
  simp only [consume, hseen, Bool.false_eq_true, false_and, if_false]
  constructor
  · exact
      { queues := h.placed.queues
        putting := h.placed.putting
        idle := fun _ => rfl
        short := Nat.zero_le 1
        tail := fun _ _ _ => rfl
        iterator := fun _ _ hne => absurd rfl hne }
  · intro hf
    refine Conserved.deliver (h.conserved hf) ?_ rfl rfl
    simp [waiting, waitingFrames, hd, ha]

private theorem Flowing.takeQueued (h : s.Flowing) {it : TurnIterator}
    {item : QueueItem} {q : TurnQueue} (hd : s.deferred = [])
    (hg : (s.queues it.turn).getNowait = some (item, q)) :
    ((s.setQueue it.turn q).consume it item).Flowing := by
  have hframes := frames_getNowait hg
  have hother {turn : Nat} (hn : s.runtime.activeQueue ≠ some turn) :
      ((s.setQueue it.turn q).queues turn).frames = [] := by
    have hold := h.placed.queues turn hn
    by_cases he : turn = it.turn
    · subst he
      rw [hold] at hframes
      simp only [FlowSystem.setQueue, Function.update_self]
      exact (List.append_eq_nil_iff.mp hframes.symm).2
    · simpa [FlowSystem.setQueue, he] using hold
  cases item with
  | error nonretry =>
    have hkeep (turn : Nat) : (((s.setQueue it.turn q).consume it (.error nonretry)).queues
        turn).frames = (s.queues turn).frames := by
      by_cases he : turn = it.turn
      · subst he
        simpa [consume, FlowSystem.setQueue, QueueItem.frame?] using hframes.symm
      · simp [consume, FlowSystem.setQueue, he]
    exact h.keep rfl id hkeep rfl rfl (.inr rfl) rfl rfl
  | frame f =>
    have ha : s.runtime.activeQueue = some it.turn := by
      by_contra hn
      rw [h.placed.queues it.turn hn] at hframes
      simp [QueueItem.frame?] at hframes
    have hw : s.waiting = ⟨f, some it.turn⟩ :: (s.setQueue it.turn q).waiting := by
      simp [waiting, waitingFrames, ha, hd, hframes, FlowSystem.setQueue, QueueItem.frame?]
    simp only [consume]
    split
    · constructor
      · exact
          { queues := fun _ hn => hother hn
            putting := h.placed.putting
            idle := fun hn => by
              have := ha.symm.trans hn
              cases this
            short := by simp [FlowSystem.setQueue, hd]
            tail := nofun
            iterator := nofun }
      · intro hf
        refine Conserved.wait (h.conserved hf) ?_ rfl rfl
        rw [hw]
        simp [waiting, waitingFrames, FlowSystem.setQueue, ha, hd]
    · constructor
      · exact
          { queues := fun _ hn => hother hn
            putting := h.placed.putting
            idle := fun _ => hd
            short := h.placed.short
            tail := fun _ _ _ => hd
            iterator := fun _ _ hne => absurd hd hne }
      · intro hf
        exact Conserved.deliver (h.conserved hf) hw rfl rfl

private theorem Flowing.take (h : s.Flowing) (hs : s.step .take = some s') : s'.Flowing := by
  simp only [step] at hs
  split at hs
  · rename_i it hi
    unfold nextItem at hs
    split at hs
    · rename_i f rest hd
      cases hs
      exact h.takeDeferred hi hd
    · rename_i hd
      split at hs <;> cases hs
      rename_i item q hg
      exact h.takeQueued hd hg
  · cases hs

private theorem Flowing.startTurn (h : s.Flowing) {binding : RunBinding}
    {mode : PermissionMode} {now : Nat}
    (hs : s.step (.startTurn binding mode now) = some s') : s'.Flowing := by
  simp only [step] at hs
  split at hs <;> cases hs
  rename_i hfree
  simp only [Bool.or_eq_true, not_or, Bool.not_eq_true', Bool.not_eq_false, List.isEmpty_iff] at hfree
  obtain ⟨⟨hfree, hd⟩, -⟩ := hfree
  have ha : s.runtime.activeQueue = none := by
    simp only [SessionRuntime.startBlocked] at hfree
    simp_all
  have hp : s.putting = none := by
    by_contra hn
    obtain ⟨p, hp⟩ := Option.ne_none_iff_exists'.mp hn
    have := h.placed.putting p hp
    simp [ha] at this
  constructor
  · constructor
    · intro turn hn
      have hne : turn ≠ s.turns := by
        rintro rfl
        exact hn rfl
      simpa [hne] using h.placed.queues turn (by simp [ha])
    · intro p hs
      exact absurd (hp.symm.trans hs) nofun
    · intro _
      exact hd
    · exact h.placed.short
    · exact h.placed.tail
    · intro it _ hne
      exact absurd hd hne
  · intro hf
    refine Conserved.wait (h.conserved hf) ?_ rfl rfl
    simp [waiting, waitingFrames, SessionRuntime.ownTurn, ha, hd, hp]

private theorem unread_frames (s : FlowSystem) (env : Nat → PeerEnv)
    (ha : s.runtime.activeQueue = some turn) :
    (s.unread env).map (·.2) = s.deferred ++ (s.queues turn).frames.filter fun f => !f.skipped := by
  simp [unread, ha, List.map_map, Function.comp_def, List.zipIdx_map_fst]

/-- `finish_turn` hands the waiting frames to the observer, unless the receiver holds one. -/
theorem Flowing.finishTurn (h : s.Flowing)
    (ha : s.runtime.activeQueue = some turn) (hp : s.putting = none) (tainted keepWarm : Bool)
    (env : Nat → PeerEnv) (now : Nat) : (s.finishTurn tainted keepWarm env now).Flowing := by
  have hq : (s.finishTurn tainted keepWarm env now).runtime.activeQueue = none := by
    simp only [FlowSystem.finishTurn]
    rw [SessionRuntime.finishTurn_eq]
  constructor
  · constructor
    · intro t _
      simp only [FlowSystem.finishTurn, ha]
      by_cases he : t = turn
      · subst he
        simp
      · simpa [he] using h.placed.queues t (by simp [ha, Ne.symm he])
    · intro p hs
      exact absurd (hp.symm.trans hs) nofun
    · intro _
      rfl
    · exact Nat.zero_le 1
    · intro _ _ _
      rfl
    · intro _ _ hne
      exact absurd rfl hne
  · intro hf
    obtain ⟨hflag, -, hhandled⟩ := SessionRuntime.finishTurn_flag hf
    have hc := h.conserved hflag
    have hnone : (s.finishTurn tainted keepWarm env now).waiting = [] := by
      simp only [waiting, waitingFrames, hq]
      simp [FlowSystem.finishTurn, hp]
    have hunread : ((s.runtime.releaseQueue.unreadLog (some turn) (s.unread env)).map
        (·.read)).filter counts = s.waiting.filter counts := by
      have hread : (s.unread env).map (fun p => (⟨p.2, some turn⟩ : ReadFrame)) =
          ((s.unread env).map (·.2)).map (⟨·, some turn⟩) := by
        rw [List.map_map]
        rfl
      rw [SessionRuntime.unreadLog_read, hread, unread_frames s env ha]
      simp [waiting, waitingFrames, ha, hp, List.filter_map, Function.comp_def, counts]
    constructor
    · have ho := hc.order
      rw [List.filter_append, ← hunread] at ho
      rw [hnone, List.append_nil]
      simpa [FlowSystem.finishTurn, ha] using ho
    · intro e he
      simp only [FlowSystem.finishTurn, List.mem_append] at he
      rcases he with he | he
      · exact hc.sound e he
      · exact SessionRuntime.unreadLog_sound hhandled e he

/-- `finish_turn` does not take the queue away from a `put` that is suspended on it. -/
def KeepsPut (s : FlowSystem) : FlowEvent → Prop
  | .finishTurn .. => s.putting = none
  | _ => True

instance (s : FlowSystem) (e : FlowEvent) : Decidable (KeepsPut s e) := by
  cases e <;> dsimp only [KeepsPut] <;> infer_instance

private theorem Flowing.step (h : s.Flowing) {e : FlowEvent} (hc : KeepsPut s e)
    (hs : s.step e = some s') : s'.Flowing := by
  cases e with
  | read f size env =>
    simp only [FlowSystem.step] at hs
    split at hs <;> cases hs
    rename_i hp
    exact h.read hp f size env
  | putResumes =>
    simp only [FlowSystem.step] at hs
    split at hs
    · rename_i p hp
      split at hs <;> cases hs
      exact h.putResumes hp
    · cases hs
  | receiverFails nonretry size =>
    simp only [FlowSystem.step] at hs
    split at hs <;> cases hs
    exact .receiverFails h.placed nonretry size
  | receiverEnds =>
    simp only [FlowSystem.step] at hs
    split at hs <;> cases hs
    apply h.setRuntime s.runtime.receiverStopped_queue
    intro hf
    rw [SessionRuntime.receiverStopped_flag] at hf
    exact (Bool.and_eq_true_iff.mp hf).1
  | startTurn binding mode now => exact h.startTurn hs
  | iterate promptSuggestions =>
    simp only [FlowSystem.step] at hs
    split at hs <;> cases hs
    rename_i turn ha hi
    constructor
    · refine ⟨h.placed.queues, h.placed.putting, h.placed.idle, h.placed.short, ?_, ?_⟩
      · intro it hit hseen
        cases hit
        cases hseen
      · intro it hit _
        cases hit
        exact ha
    · intro hf
      exact ⟨(h.conserved hf).order, (h.conserved hf).sound⟩
  | take => exact h.take hs
  | iteratorStops =>
    cases hs
    exact h.keep rfl id (fun _ => rfl) rfl rfl (.inr rfl) rfl rfl
  | quiesce =>
    cases hs
    have heq := s.runtime.dropBinding_eq
    apply h.setRuntime
    · rw [heq]
    · rw [heq]
      exact id
  | finishTurn tainted keepWarm env now =>
    simp only [FlowSystem.step] at hs
    split at hs <;> cases hs
    rename_i ha
    exact h.finishTurn ha hc tainted keepWarm env now

/-- Whatever the interleaving, the frames that a healthy runtime has read are those that were
disposed of, followed by those that wait, and each was disposed of as it should be. -/
theorem conserved_of_keepsPut (key : String) (options : RuntimeOptions) (created now : Nat)
    (es : List FlowEvent) (s : FlowSystem)
    (hm : RunMeets step KeepsPut (init key options created now) es)
    (hr : run step (init key options created now) es = some s)
    (hf : s.runtime.healthyFlag = true) : s.Conserved :=
  (run_invariant (fun _ _ _ hi hc hs => Flowing.step hi hc hs)
    (flowing_init key options created now) hm hr).conserved hf

/-- The result of a turn, then the turn of a peer that arrives before the release. -/
def peerBeforeRelease : List FlowEvent :=
  [.startTurn ⟨1, .default, true, true⟩ .default 1,
    .read { type := .assistant, parsed := .message (some "assistant") } 10 {},
    .read { type := .result, parsed := .message (some "result") } 10 {},
    .read { type := .user, originKind := some "peer", parsed := .message (some "user") } 10 {},
    .iterate true, .take, .take, .take, .quiesce, .finishTurn false true (fun _ => {}) 2]

theorem conserved_peerBeforeRelease :
    ∃ s, run step (init "s" {} 0 0) peerBeforeRelease = some s ∧ s.runtime.state = .draining ∧
      s.log.map (·.disposal) = [.delivered 0, .delivered 0, .recorded 0 "user"] ∧ s.Conserved := by
  obtain ⟨s, hr, ht⟩ := exists_run_of_map step (init "s" {} 0 0) peerBeforeRelease
    (fun s => s.runtime.state = .draining ∧ s.runtime.healthyFlag = true ∧
      s.log.map (·.disposal) = [.delivered 0, .delivered 0, .recorded 0 "user"]) (by decide)
  obtain ⟨hd, hf, hl⟩ := of_decide_eq_true ht
  exact ⟨s, hr, hd, hl, conserved_of_keepsPut "s" {} 0 0 peerBeforeRelease s (by decide) hr hf⟩

/-- The frame was delivered, recorded or carried on, or the runtime is dead. -/
def KeptOrDead (s : FlowSystem) (p : ReadFrame) : Prop :=
  (∃ e ∈ s.log, e.read = p ∧ e.disposal ≠ .ignored ∧ e.disposal ≠ .unlabelled) ∨
    p ∈ s.waiting ∨ s.runtime.state = .dead

instance (s : FlowSystem) (p : ReadFrame) : Decidable (s.KeptOrDead p) :=
  inferInstanceAs (Decidable (_ ∨ _))

/-- A status frame that arrives between turns goes nowhere, and the runtime stays idle. -/
theorem idleStatus_not_kept :
    ∃ s, run step (init "s" {} 0 0) [.read { type := .system, subtype := some "status" } 10 {}] = some s ∧
      ∃ p ∈ s.arrived, p.frame.skipped = false ∧ ¬s.KeptOrDead p ∧ s.runtime.state = .idle := by
  obtain ⟨s, hr, ht⟩ := exists_run_of_map step (init "s" {} 0 0)
    [.read { type := .system, subtype := some "status" } 10 {}]
    (fun s => ∃ p ∈ s.arrived, p.frame.skipped = false ∧ ¬s.KeptOrDead p ∧ s.runtime.state = .idle)
    (by decide)
  exact ⟨s, hr, of_decide_eq_true ht⟩

end FlowSystem

end PrivaCloud.AgentRunner
