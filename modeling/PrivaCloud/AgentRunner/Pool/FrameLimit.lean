import PrivaCloud.AgentRunner.Pool.TurnQueues
import PrivaCloud.AgentRunner.Runtime.Evolution
import PrivaCloud.AgentRunner.Service.Attempts

/-!
# A turn whose frames pass the limit

One turn of one runtime: the lifetime receiver, the consumer of `iter_response_items`, the automatic retirement and the
close that it asks for. A frame that can never fit into the queue of the turn stops the receiver.
-/

namespace PrivaCloud.AgentRunner

open Framework

/-- `RuntimeDisconnectedError` -/
def runtimeDisconnected : RunException := .other "RuntimeDisconnectedError"

/-- What `iter_response_items` raises for a notice. -/
def noticeError (nonretry : Bool) : RunException :=
  if nonretry then .runtimeFrameLimit else runtimeDisconnected

structure LimitedTurn where
  runtime : SessionRuntime
  turn : Nat
  queue : TurnQueue := TurnQueue.empty
  deferred : List Frame := []
  putting : Option Putting := none
  iterator : Option TurnIterator := none
  /-- the frames that the consumer took and kept -/
  received : List Frame := []
  /-- the runtime error that ended the consumer -/
  raised : Option RunException := none
  /-- the frames that were taken or queued when a frame stopped the receiver -/
  stopped : Option (List Frame) := none

inductive LimitEvent
  /-- the receiver reads a frame of the given size -/
  | read (f : Frame) (size : Nat)
  | putResumes
  /-- the stream raises -/
  | streamFails (noticeSize : Nat)
  /-- the end of `acquire` -/
  | becomesResident
  /-- the retirement task asks for the close -/
  | retire
  /-- another caller does -/
  | close
  /-- a section of the runtime that is not one of those above -/
  | runtime (e : RuntimeEvent)
  | iterate (promptSuggestions : Bool)
  | take
  /-- the iterator is closed, is cancelled or waits for no suggestion any more -/
  | iteratorStops

namespace LimitedTurn

/-- The end of `start_turn`. -/
def start (r : SessionRuntime) (turn : Nat) (binding : RunBinding) (mode : PermissionMode) (now : Nat) :
    LimitedTurn :=
  { runtime := (r.setPermissionMode mode).ownTurn turn binding mode now, turn := turn }

def setRuntime (s : LimitedTurn) (r : SessionRuntime) : LimitedTurn := { s with runtime := r }

/-- The notice of a stopped receiver, for which the queue may have no room. -/
def notify (s : LimitedTurn) (nonretry : Bool) (size : Nat) : LimitedTurn :=
  match s.queue.putNowait (.error nonretry) size with
  | .ok q => { s with queue := q }
  | .error _ => s

/-- The exception handler and the `finally` block of `_receiver_loop`. -/
def receiverFails (s : LimitedTurn) (nonretry : Bool) (size : Nat) : LimitedTurn :=
  (s.notify nonretry size).setRuntime s.runtime.poison.receiverStopped

/-- The size of the notice that quotes the `QueueByteLimitError` of an item. -/
def limitNoticeSize (size limit : Nat) : Nat :=
  101 + (Nat.toDigits 10 size).length + (Nat.toDigits 10 limit).length

/-- Every frame that was read for the turn and not lost, oldest first. -/
def frames (s : LimitedTurn) : List Frame := s.received ++ s.deferred ++ s.queue.frames

/-- `await queue.put(raw)` up to its first suspension; a frame that can never fit makes it raise. -/
def putFrame (s : LimitedTurn) (f : Frame) (size : Nat) : LimitedTurn :=
  match s.queue.itemSize size with
  | .error _ =>
    { s with stopped := some s.frames }.receiverFails true (limitNoticeSize (max 1 size) s.queue.maxBytes)
  | .ok n =>
    if s.queue.fits n then { s with queue := s.queue.enqueue (.frame f) n }
    else { s with putting := some ⟨s.turn, f, n⟩ }

/-- `_close_physical` empties the active queue and puts its notice there. -/
def notifyClose (s : LimitedTurn) : LimitedTurn :=
  match s.runtime.activeQueue with
  | none => s
  | some _ =>
    match s.queue.drained.putNowait (.error false) TurnQueues.closeNoticeSize with
    | .ok q => { s with queue := q }
    | .error _ => { s with queue := s.queue.drained }

def around (s : LimitedTurn) : RuntimeEvent → LimitedTurn
  | .closeBegins => s.notifyClose
  | .closeJoined => { s with deferred := [] }
  | .receiverEnds => { s with putting := none }
  | .toolCall | .toolReturn | .closeUnbound _ | .closeDisconnected | .frame .. | .receiverFails => s

/-- The receiver ends cleanly when it waits for its stream, or wherever it is cancelled. -/
def enabled (s : LimitedTurn) : RuntimeEvent → Bool
  | .frame .. => s.runtime.activeQueue.isNone && s.putting.isNone
  | .receiverFails => false
  | .receiverEnds => s.putting.isNone || s.runtime.receiver = .cancelled
  | .toolCall | .toolReturn | .closeBegins | .closeUnbound _ | .closeDisconnected | .closeJoined => true

def nextItem (s : LimitedTurn) : Option (QueueItem × LimitedTurn) :=
  match s.deferred with
  | f :: rest => some (.frame f, { s with deferred := rest })
  | [] => s.queue.getNowait.map fun (item, q) => (item, { s with queue := q })

/-- The body of the loop of `iter_response_items`. -/
def consume (s : LimitedTurn) (it : TurnIterator) : QueueItem → LimitedTurn
  | .error nonretry => { s with raised := some (noticeError nonretry), iterator := none }
  | .frame f =>
    if it.resultSeen ∧ f.type ≠ .promptSuggestion then
      { s with deferred := s.deferred ++ [f], iterator := none }
    else { s with received := s.received ++ [f], iterator := it.after f }

def step (s : LimitedTurn) : LimitEvent → Option LimitedTurn
  | .read f size =>
    if s.runtime.receiver = .live ∧ s.putting = none ∧ s.runtime.activeQueue.isSome then
      some (s.putFrame f size)
    else none
  | .putResumes =>
    match s.putting with
    | some p =>
      if s.runtime.receiver = .live ∧ s.queue.fits p.size then
        some { s with putting := none, queue := s.queue.enqueue (.frame p.frame) p.size }
      else none
    | none => none
  | .streamFails noticeSize =>
    if s.runtime.receiver = .live ∧ s.putting = none ∧ s.runtime.activeQueue.isSome then
      some (s.receiverFails false noticeSize)
    else none
  | .becomesResident => some (s.setRuntime { s.runtime with resident := true })
  | .retire =>
    if s.runtime.retireTask = .scheduled then
      some (s.setRuntime { s.runtime.requestClose with retireTask := .closing })
    else none
  | .close => some (s.setRuntime s.runtime.requestClose)
  | .runtime e => if s.enabled e then (s.runtime.evolve e).map (s.around e).setRuntime else none
  | .iterate promptSuggestions =>
    match s.iterator, s.raised with
    | none, none => some { s with iterator := some { turn := s.turn, promptSuggestions } }
    | _, _ => none
  | .take =>
    match s.iterator with
    | some it => s.nextItem.map fun (item, s) => s.consume it item
    | none => none
  | .iteratorStops => some { s with iterator := none }

/-- After a frame has stopped the receiver, the consumer has or gets the frames that were queued, in
their order, and after them an error that is not retried. -/
def Reported (s : LimitedTurn) : Prop :=
  ∀ frames, s.stopped = some frames → match s.raised with
    | none => s.received.map .frame ++ s.deferred.map .frame ++ s.queue.contents =
        frames.map QueueItem.frame ++ [.error true]
    | some e => s.received = frames ∧ e = .runtimeFrameLimit ∧ shouldRetryException e = false

/-- The notice of a frame that passes the limit has room, no close has begun before it, and none begins
before the consumer has taken it. -/
def Careful (s : LimitedTurn) : LimitEvent → Bool
  | .read _ size =>
    match s.queue.itemSize size with
    | .ok _ => true
    | .error _ =>
      s.queue.fits (limitNoticeSize (max 1 size) s.queue.maxBytes) &&
        (s.runtime.closeTask = .absent || s.runtime.closeTask = .scheduled)
  | .runtime .closeBegins => s.stopped.isNone || s.raised.isSome
  | _ => true

/-- A queue without notices holds the frames that it lists. -/
def Unnoticed (q : TurnQueue) : Prop := q.contents = q.frames.map .frame

structure Inv (s : LimitedTurn) : Prop where
  /-- a notice comes from a receiver that has ended or from a close -/
  clear : s.runtime.receiver = .live → s.runtime.Unclosed → s.raised = none ∧ Unnoticed s.queue
  deferred : s.deferred.length ≤ 1
  ended : s.stopped.isSome → s.runtime.receiver = .ended
  unclosed : s.stopped.isSome → s.raised = none → s.runtime.Unclosed
  iterator : s.raised.isSome → s.iterator = none
  reported : s.Reported

private theorem Unnoticed.enqueue {q : TurnQueue} (h : Unnoticed q) (f : Frame) (n : Nat) :
    Unnoticed (q.enqueue (.frame f) n) := by
  unfold Unnoticed TurnQueue.frames at h ⊢
  rw [BoundedAsyncQueue.contents_enqueue, List.filterMap_append, List.map_append, ← h]
  rfl

private theorem taken_of_append {received frames : List Frame} {item : QueueItem} {rest : List QueueItem}
    (h : received.map .frame ++ item :: rest = frames.map QueueItem.frame ++ [.error true]) :
    item = .error true ∧ received = frames ∨
      ∃ f, item = .frame f ∧ (received ++ [f]).map .frame ++ rest = frames.map QueueItem.frame ++ [.error true] := by
  induction received generalizing frames with
  | nil =>
    cases frames with
    | nil =>
      obtain ⟨rfl, -⟩ := List.cons.inj h
      exact .inl ⟨rfl, rfl⟩
    | cons f fs =>
      obtain ⟨rfl, -⟩ := List.cons.inj h
      exact .inr ⟨f, rfl, h⟩
  | cons g gs ih =>
    cases frames with
    | nil =>
      obtain ⟨hg, -⟩ := List.cons.inj h
      cases hg
    | cons f fs =>
      obtain ⟨hg, htail⟩ := List.cons.inj h
      obtain rfl := QueueItem.frame.inj hg
      rcases ih htail with ⟨hitem, rfl⟩ | ⟨f', hitem, heq⟩
      · exact .inl ⟨hitem, rfl⟩
      · refine .inr ⟨f', hitem, ?_⟩
        simp only [List.cons_append, List.map_cons, heq]

namespace Inv

variable {s : LimitedTurn}

private theorem setRuntime (h : Inv s) {r : SessionRuntime} (hlive : r.receiver = .live → s.runtime.receiver = .live)
    (hended : s.runtime.receiver = .ended → r.receiver = .ended)
    (hcloses : r.Unclosed ↔ s.runtime.Unclosed) : Inv (s.setRuntime r) where
  clear hl hu := h.clear (hlive hl) (hcloses.mp hu)
  deferred := h.deferred
  ended hs := hended (h.ended hs)
  unclosed hs hr := hcloses.mpr (h.unclosed hs hr)
  iterator := h.iterator
  reported := h.reported

private theorem unstopped (h : Inv s) (hlive : s.runtime.receiver = .live) : s.stopped = none := by
  by_contra hn
  have hended := h.ended (Option.isSome_iff_ne_none.mpr hn)
  exact absurd (hlive.symm.trans hended) (by decide)

theorem enqueue (h : Inv s) (hlive : s.runtime.receiver = .live) (f : Frame) (n : Nat) (putting : Option Putting) :
    Inv { s with putting := putting, queue := s.queue.enqueue (.frame f) n } where
  clear hl hu := ⟨(h.clear hl hu).1, (h.clear hl hu).2.enqueue f n⟩
  deferred := h.deferred
  ended := h.ended
  unclosed := h.unclosed
  iterator := h.iterator
  reported frames hs := absurd ((h.unstopped hlive).symm.trans hs) (by simp)

/-- The stream fails; nobody promises anything of the notice. -/
theorem streamFails (h : Inv s) (hlive : s.runtime.receiver = .live) (size : Nat) :
    Inv (s.receiverFails false size) := by
  have hstopped := h.unstopped hlive
  have hnotify : ∃ q, s.notify false size = { s with queue := q } := by
    unfold notify
    split
    · rename_i q _
      exact ⟨q, rfl⟩
    · exact ⟨s.queue, rfl⟩
  obtain ⟨q, hq⟩ := hnotify
  unfold receiverFails
  rw [hq, SessionRuntime.receiverStopped_eq]
  exact {
    clear := fun hl => ReceiverTask.noConfusion hl
    deferred := h.deferred
    ended := fun _ => rfl
    unclosed := fun hs => absurd hs (by simp [LimitedTurn.setRuntime, hstopped])
    iterator := h.iterator
    reported := fun frames hs => absurd (hstopped.symm.trans hs) (by simp) }

private theorem limitStops (h : Inv s) (hlive : s.runtime.receiver = .live) (hu : s.runtime.Unclosed) {size : Nat}
    (hfits : s.queue.fits size = true) (hsize : s.queue.itemSize size = .ok size) :
    Inv ({ s with stopped := some s.frames }.receiverFails true size) := by
  obtain ⟨hraised, hqueue⟩ := h.clear hlive hu
  have hnotify : { s with stopped := some s.frames }.notify true size =
      { s with stopped := some s.frames, queue := s.queue.enqueue (.error true) size } := by
    simp only [notify, BoundedAsyncQueue.putNowait, hsize, hfits, if_true]
  unfold receiverFails
  rw [hnotify, SessionRuntime.receiverStopped_eq]
  refine ⟨fun hl => ReceiverTask.noConfusion hl, h.deferred, fun _ => rfl, fun _ _ => hu, h.iterator, ?_⟩
  intro frames hs
  obtain rfl := Option.some.inj hs
  simp only [LimitedTurn.setRuntime, hraised]
  rw [BoundedAsyncQueue.contents_enqueue, hqueue]
  simp [frames]

private theorem read (h : Inv s) {f : Frame} {size : Nat} (hlive : s.runtime.receiver = .live)
    (hcareful : s.Careful (.read f size) = true) : Inv (s.putFrame f size) := by
  unfold putFrame
  split
  · rename_i e hitem
    simp only [Careful, hitem, Bool.and_eq_true, Bool.or_eq_true, decide_eq_true_eq] at hcareful
    refine h.limitStops hlive hcareful.2 hcareful.1 ?_
    have hfits := hcareful.1
    simp only [BoundedAsyncQueue.fits, Bool.and_eq_true, decide_eq_true_eq] at hfits
    have hpos : 1 ≤ limitNoticeSize (max 1 size) s.queue.maxBytes := by
      unfold limitNoticeSize
      omega
    unfold BoundedAsyncQueue.itemSize
    rw [Nat.max_eq_right hpos, if_neg (by omega)]
  · rename_i n _
    split
    · exact h.enqueue hlive f n s.putting
    · exact ⟨h.clear, h.deferred, h.ended, h.unclosed, h.iterator, h.reported⟩

private theorem consume (h : Inv s) {it : TurnIterator} {item : QueueItem} {deferred : List Frame} {queue : TurnQueue}
    (hit : s.iterator = some it) (hdeferred : deferred = [])
    (htaken : s.deferred.map .frame ++ s.queue.contents = item :: queue.contents)
    (hqueue : Unnoticed s.queue → Unnoticed queue) :
    Inv ({ s with deferred := deferred, queue := queue }.consume it item) := by
  subst hdeferred
  have hnone : s.raised = none := by
    by_contra hn
    have hidle := h.iterator (Option.isSome_iff_ne_none.mpr hn)
    exact absurd (hit.symm.trans hidle) (by simp)
  have hleft (frames : List Frame) (hs : s.stopped = some frames) :
      s.received.map .frame ++ item :: queue.contents = frames.map QueueItem.frame ++ [.error true] := by
    have hreported := h.reported frames hs
    rw [hnone] at hreported
    rw [← htaken, ← List.append_assoc]
    exact hreported
  cases item with
  | error nonretry =>
    refine ⟨?_, Nat.zero_le 1, h.ended, fun _ hr => absurd hr (by simp [LimitedTurn.consume]), fun _ => rfl, ?_⟩
    · intro hl hu
      have hmem : QueueItem.error nonretry ∈ s.deferred.map .frame ++ s.queue.contents := by
        rw [htaken]
        exact List.mem_cons_self
      rw [(h.clear hl hu).2, ← List.map_append] at hmem
      obtain ⟨f, -, hf⟩ := List.mem_map.mp hmem
      cases hf
    · intro frames hs
      obtain ⟨hitem, hreceived⟩ | ⟨f, hitem, -⟩ := taken_of_append (hleft frames hs)
      · obtain rfl := QueueItem.error.inj hitem
        exact ⟨hreceived, rfl, rfl⟩
      · cases hitem
  | frame f =>
    have hclear (hl : s.runtime.receiver = .live) (hu : s.runtime.Unclosed) :
        s.raised = none ∧ Unnoticed queue := ⟨hnone, hqueue (h.clear hl hu).2⟩
    simp only [LimitedTurn.consume]
    split
    · refine ⟨hclear, Nat.le_refl 1, h.ended, h.unclosed, fun _ => rfl, ?_⟩
      intro frames hs
      have hleft := hleft frames hs
      simp only [hnone]
      rw [List.append_assoc]
      exact hleft
    · refine ⟨hclear, Nat.zero_le 1, h.ended, h.unclosed, fun hr => absurd hr (by simp [hnone]), ?_⟩
      intro frames hs
      obtain ⟨hitem, -⟩ | ⟨g, hitem, hg⟩ := taken_of_append (hleft frames hs)
      · cases hitem
      · obtain rfl := QueueItem.frame.inj hitem
        simp only [hnone]
        simpa using hg

private theorem take (h : Inv s) {it : TurnIterator} (hit : s.iterator = some it) {item : QueueItem} {t : LimitedTurn}
    (hnext : s.nextItem = some (item, t)) : Inv (t.consume it item) := by
  unfold nextItem at hnext
  split at hnext
  · rename_i f rest hdeferred
    obtain ⟨rfl, rfl⟩ := Prod.mk.inj (Option.some.inj hnext)
    have hrest : rest = [] := by
      have hlength := h.deferred
      rw [hdeferred, List.length_cons] at hlength
      exact List.eq_nil_of_length_eq_zero (by omega)
    refine h.consume hit hrest ?_ id
    rw [hdeferred, hrest]
    rfl
  · rename_i hdeferred
    obtain ⟨⟨item', queue⟩, hget, heq⟩ := Option.map_eq_some_iff.mp hnext
    obtain ⟨rfl, rfl⟩ := Prod.mk.inj heq
    have hcontents := BoundedAsyncQueue.contents_getNowait hget
    have hitem : Unnoticed s.queue → Unnoticed queue := by
      intro hq
      unfold Unnoticed TurnQueue.frames at hq ⊢
      rw [hcontents] at hq
      cases item' with
      | frame f => exact (List.cons.inj hq).2
      | error nonretry =>
        have hmem : QueueItem.error nonretry ∈
            (List.filterMap QueueItem.frame? (QueueItem.error nonretry :: queue.contents)).map .frame := by
          rw [← hq]
          exact List.mem_cons_self
        obtain ⟨f, -, hf⟩ := List.mem_map.mp hmem
        cases hf
    have htaken := h.consume hit rfl (by rw [hdeferred, hcontents]; rfl) hitem
    rw [show ({ s with queue := queue } : LimitedTurn) = { s with deferred := [], queue := queue } by rw [← hdeferred]]
    exact htaken

private theorem closes (h : Inv s) {r : SessionRuntime} (hended : s.runtime.receiver = .ended → r.receiver = .ended)
    (hclosed : ¬ r.Unclosed) (hdone : s.stopped.isSome → s.raised.isSome) (queue : TurnQueue) {deferred : List Frame}
    (hdeferred : deferred.length ≤ 1) : Inv { s with runtime := r, queue := queue, deferred := deferred } where
  clear _ hu := absurd hu hclosed
  deferred := hdeferred
  ended hs := hended (h.ended hs)
  unclosed hs hr := by
    have hraised := hdone hs
    rw [hr] at hraised
    cases hraised
  iterator := h.iterator
  reported frames hs := by
    have hreported := h.reported frames hs
    obtain ⟨e, he⟩ := Option.isSome_iff_exists.mp (hdone (by rw [hs]; rfl))
    simp only [he] at hreported ⊢
    exact hreported

private theorem around (h : Inv s) {e : RuntimeEvent} {r : SessionRuntime} (hr : s.runtime.evolve e = some r)
    (henabled : s.enabled e = true) (hcareful : s.Careful (.runtime e) = true) : Inv ((s.around e).setRuntime r) := by
  obtain ⟨hlive, hended⟩ := SessionRuntime.evolve_receiver hr
  obtain ⟨hback, hforth⟩ := SessionRuntime.evolve_unclosed hr
  cases e with
  | closeBegins =>
    have hdone : s.stopped.isSome → s.raised.isSome := by
      intro hs
      simp only [Careful, Bool.or_eq_true] at hcareful
      refine hcareful.resolve_left fun hn => ?_
      rw [Option.isNone_iff_eq_none.mp hn] at hs
      cases hs
    have hbegun : ¬ r.Unclosed := by
      cases SessionRuntime.becomes_of_evolve hr
      exact (s.runtime.beginClose_tasks).1
    have hnotify : ∃ q, s.notifyClose = { s with queue := q } := by
      unfold notifyClose
      split
      · exact ⟨s.queue, rfl⟩
      · split
        · rename_i q _
          exact ⟨q, rfl⟩
        · exact ⟨_, rfl⟩
    obtain ⟨q, hq⟩ := hnotify
    simp only [LimitedTurn.around]
    rw [hq]
    exact h.closes hended hbegun hdone q h.deferred
  | closeJoined =>
    obtain ⟨⟩ := SessionRuntime.becomes_of_evolve hr
    rename_i hjoining _
    have hdone : s.stopped.isSome → s.raised.isSome := by
      intro hs
      by_contra hn
      have hu := h.unclosed hs (Option.not_isSome_iff_eq_none.mp hn)
      simp [SessionRuntime.Unclosed, hjoining] at hu
    have hclosed : ¬ s.runtime.closeJoined.Unclosed := by simp [SessionRuntime.Unclosed, SessionRuntime.closeJoined]
    exact h.closes hended hclosed hdone s.queue (Nat.zero_le 1)
  | receiverEnds =>
    have hset := h.setRuntime hlive hended ⟨hback, hforth (by simp)⟩
    exact ⟨hset.clear, hset.deferred, hset.ended, hset.unclosed, hset.iterator, hset.reported⟩
  | toolCall => exact h.setRuntime hlive hended ⟨hback, hforth (by simp)⟩
  | toolReturn => exact h.setRuntime hlive hended ⟨hback, hforth (by simp)⟩
  | closeUnbound timedOut => exact h.setRuntime hlive hended ⟨hback, hforth (by simp)⟩
  | closeDisconnected => exact h.setRuntime hlive hended ⟨hback, hforth (by simp)⟩
  | frame env f => exact h.setRuntime hlive hended ⟨hback, hforth (by simp)⟩
  | receiverFails => cases henabled

private theorem step (h : Inv s) {e : LimitEvent} {s' : LimitedTurn} (hcareful : s.Careful e = true)
    (hs : s.step e = some s') : Inv s' := by
  cases e with
  | read f size =>
    simp only [LimitedTurn.step] at hs
    split at hs <;> cases hs
    rename_i hguard
    exact h.read hguard.1 hcareful
  | putResumes =>
    simp only [LimitedTurn.step] at hs
    split at hs
    · split at hs <;> cases hs
      rename_i p _ hguard
      exact h.enqueue hguard.1 p.frame p.size none
    · cases hs
  | streamFails noticeSize =>
    simp only [LimitedTurn.step] at hs
    split at hs <;> cases hs
    rename_i hguard
    exact h.streamFails hguard.1 noticeSize
  | becomesResident =>
    cases hs
    exact h.setRuntime id id .rfl
  | retire =>
    simp only [LimitedTurn.step] at hs
    split at hs <;> cases hs
    have hclose := s.runtime.unclosed_requestClose
    rw [SessionRuntime.requestClose_eq] at hclose ⊢
    exact h.setRuntime id id hclose
  | close =>
    cases hs
    have hclose := s.runtime.unclosed_requestClose
    rw [SessionRuntime.requestClose_eq] at hclose ⊢
    exact h.setRuntime id id hclose
  | runtime e =>
    simp only [LimitedTurn.step] at hs
    split at hs
    · rename_i henabled
      obtain ⟨r, hr, rfl⟩ := Option.map_eq_some_iff.mp hs
      exact h.around hr henabled hcareful
    · cases hs
  | iterate promptSuggestions =>
    simp only [LimitedTurn.step] at hs
    split at hs <;> cases hs
    rename_i hraised
    exact ⟨h.clear, h.deferred, h.ended, h.unclosed, fun hr => absurd hr (by simp [hraised]), h.reported⟩
  | take =>
    simp only [LimitedTurn.step] at hs
    split at hs
    · rename_i it hit
      obtain ⟨⟨item, t⟩, hnext, rfl⟩ := Option.map_eq_some_iff.mp hs
      exact h.take hit hnext
    · cases hs
  | iteratorStops =>
    cases hs
    exact ⟨h.clear, h.deferred, h.ended, h.unclosed, fun _ => rfl, h.reported⟩

end Inv

private theorem inv_start (r : SessionRuntime) (turn : Nat) (binding : RunBinding) (mode : PermissionMode) (now : Nat) :
    Inv (start r turn binding mode now) where
  clear _ _ := ⟨rfl, rfl⟩
  deferred := Nat.zero_le 1
  ended hs := absurd hs (by simp [start])
  unclosed hs := absurd hs (by simp [start])
  iterator _ := rfl
  reported frames hs := absurd hs (by simp [start])

/-- In every run in which the notice of a frame that passes the limit finds room and is not drained by a
close, the consumer gets every queued frame and then the error that is not retried. -/
theorem reported_of_careful (r : SessionRuntime) (turn : Nat) (binding : RunBinding) (mode : PermissionMode)
    (now : Nat) {es : List LimitEvent} {s : LimitedTurn}
    (hcareful : RunMeets step (fun s e => s.Careful e = true) (start r turn binding mode now) es)
    (hr : run step (start r turn binding mode now) es = some s) : s.Reported :=
  (run_invariant (fun _ _ _ h hc hs => Inv.step h hc hs) (inv_start r turn binding mode now) hcareful hr).reported

def warmRuntime : SessionRuntime := (SessionRuntime.create "s1" {} 0).connected 0

def warmBinding : RunBinding := { run := 0, effectiveMode := .default, enableFeedback := true, hasCoordinator := true }

def textFrame : Frame := { type := .assistant, parsed := .message (some "assistant") }

/-- A frame passes the limit behind one that is queued; the consumer takes both, and then the runtime is
retired. -/
def limitRun : List LimitEvent :=
  [.becomesResident, .read textFrame 100, .read textFrame (maxTurnFrameBytes + 1), .iterate false, .take, .take,
    .retire, .runtime .closeBegins]

theorem reported_limitRun :
    ∃ s, run step (start warmRuntime 0 warmBinding .default 1) limitRun = some s ∧ s.raised.isSome ∧ s.Reported := by
  obtain ⟨s, hr, hraised⟩ := exists_run_of_map step (start warmRuntime 0 warmBinding .default 1) limitRun
    (fun s => s.raised.isSome) (by decide)
  exact ⟨s, hr, hraised, reported_of_careful warmRuntime 0 warmBinding .default 1 (by decide) hr⟩

/-- The retirement closes the runtime before the consumer has taken anything: the queued frame is lost and
the error is one that is retried. -/
theorem not_reported_retiredFirst :
    ¬ ∀ (r : SessionRuntime) (turn : Nat) (binding : RunBinding) (mode : PermissionMode) (now : Nat)
      (es : List LimitEvent) (s : LimitedTurn),
      run step (start r turn binding mode now) es = some s → s.Reported := by
  intro hall
  obtain ⟨s, hr, hstopped, hraised⟩ := exists_run_of_decide step (start warmRuntime 0 warmBinding .default 1)
    [.becomesResident, .read textFrame 100, .read textFrame (maxTurnFrameBytes + 1), .retire, .runtime .closeBegins,
      .iterate false, .take]
    (p := fun s => s.stopped = some [textFrame] ∧ s.raised = some runtimeDisconnected)
    (q := fun s => s.stopped = some [textFrame] ∧ s.raised = some runtimeDisconnected) (fun _ h => h)
    (by decide)
  have hreported := hall warmRuntime 0 warmBinding .default 1 _ s hr [textFrame] hstopped
  rw [hraised] at hreported
  exact absurd hreported.2.1 (by decide)

end LimitedTurn

end PrivaCloud.AgentRunner
