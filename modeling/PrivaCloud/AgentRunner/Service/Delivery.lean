import Mathlib.Data.List.Perm.Basic
import PrivaCloud.AgentRunner.Service.MessageQueue

/-!
# Delivery of queued messages

Every acknowledged entry is cancelled or flushed, once, in arrival order, unless a query raises after its entry
was popped, the message loop is left for good while entries wait, or a frame is accepted after that.
-/

namespace PrivaCloud.AgentRunner

open Framework

namespace MessageRun

def waiting (s : MessageRun) : List Nat := (s.queueOut.getD []).map (·.serial)

/-- The entry that was popped and is not yet submitted. -/
def inHand (s : MessageRun) : List Nat :=
  match s.phase with
  | .flushing w _ => [w.serial]
  | _ => []

def past (s : MessageRun) : Bool :=
  match s.phase with
  | .closing none | .ended | .finished => true
  | _ => false

/-- The step leaves the message loop for the last time, other than by an end of turn. -/
def leaves (s : MessageRun) : MessageEvent → Bool
  | .idleStop =>
    match s.phase with
    | .streaming none _ => true
    | _ => false
  | .attemptRaises again => !(again && decide (s.attempt < maxAttempts))
  | .closed lost =>
    match s.phase with
    | .closing (some .retry) => !decide (s.attempt < maxAttempts)
    | .closing (some .fatal) => !(lost && decide (s.attempt < maxAttempts))
    | _ => false
  | _ => false

/-- None of the exits that forget the queue is taken, unless the run is aborted. -/
def KeepsQueue (s : MessageRun) (e : MessageEvent) : Prop :=
  s.aborted = true ∨ (s.leaves e = true → s.waiting = []) ∧ (match e with
    | .queue entry invalid => s.past = true → (s.handleQueue entry invalid).1 = s
    | .flushRaises _ => False
    | _ => True)

instance (s : MessageRun) (e : MessageEvent) : Decidable (s.KeepsQueue e) :=
  by cases e <;> dsimp only [KeepsQueue] <;> infer_instance

/-- Every acknowledged entry was cancelled or flushed, exactly one of the two and once, and the
flushed ones in arrival order. -/
structure Delivered (s : MessageRun) : Prop where
  accounted : (s.cancelled ++ s.flushed).Perm (List.range s.acknowledged)
  ordered : s.flushed.Pairwise (· < ·)

structure Kept (s : MessageRun) : Prop where
  accounted : (s.cancelled ++ (s.flushed ++ (s.inHand ++ s.waiting))).Perm
    (List.range s.acknowledged)
  ordered : (s.flushed ++ (s.inHand ++ s.waiting)).Pairwise (· < ·)
  empty : s.past = true → s.waiting = []

theorem Kept.init : Kept init := ⟨List.Perm.refl _, List.Pairwise.nil, fun _ => rfl⟩

/-- The entries on their way out, in order: flushed, popped, waiting. -/
def line (s : MessageRun) : List Nat := s.flushed ++ (s.inHand ++ s.waiting)

variable {s s' : MessageRun}

theorem Kept.of_line (h : Kept s) (hl : s'.line = s.line)
    (hc : s'.cancelled = s.cancelled) (ha : s'.acknowledged = s.acknowledged)
    (hp : s'.past = true → s'.waiting = []) : Kept s' := by
  refine ⟨?_, ?_, hp⟩
  · show (s'.cancelled ++ s'.line).Perm _
    rw [hl, hc, ha]
    exact h.accounted
  · show s'.line.Pairwise _
    rw [hl]
    exact h.ordered

theorem Kept.lt (h : Kept s) {x : Nat} (hx : x ∈ s.line) : x < s.acknowledged := by
  have hm : x ∈ s.cancelled ++ s.line := List.mem_append_right _ hx
  exact List.mem_range.mp (h.accounted.mem_iff.mp hm)

theorem Kept.accept (h : Kept s) (hl : s'.line = s.line ++ [s.acknowledged])
    (hc : s'.cancelled = s.cancelled) (ha : s'.acknowledged = s.acknowledged + 1)
    (hp : s'.past = false) : Kept s' := by
  refine ⟨?_, ?_, ?_⟩
  · show (s'.cancelled ++ s'.line).Perm _
    rw [hl, hc, ha, List.range_succ, ← List.append_assoc]
    exact h.accounted.append_right _
  · show s'.line.Pairwise _
    rw [hl, List.pairwise_append]
    refine ⟨h.ordered, List.pairwise_singleton _ _, ?_⟩
    intro x hx y hy
    rw [List.mem_singleton.mp hy]
    exact h.lt hx
  · rw [hp]
    nofun

theorem Kept.cancel (h : Kept s) (before after : List Nat) {x : Nat}
    (hl : s.line = before ++ x :: after) (hl' : s'.line = before ++ after)
    (hc : s'.cancelled = s.cancelled ++ [x]) (ha : s'.acknowledged = s.acknowledged)
    (hp : s'.past = true → s'.waiting = []) : Kept s' := by
  refine ⟨?_, ?_, hp⟩
  · show (s'.cancelled ++ s'.line).Perm _
    have hperm : (s'.cancelled ++ s'.line).Perm (s.cancelled ++ s.line) := by
      rw [hc, hl, hl', List.append_assoc, List.singleton_append]
      exact (List.perm_middle.symm).append_left _
    rw [ha]
    exact hperm.trans h.accounted
  · show s'.line.Pairwise _
    have hsub : s'.line.Sublist s.line := by
      rw [hl, hl']
      exact (List.sublist_cons_self x after).append_left before
    exact List.Pairwise.sublist hsub h.ordered

theorem Kept.handleQueue (h : Kept s) {entry : QueuedEntry}
    {invalid : Option String} (hp : s.past = true → (s.handleQueue entry invalid).1 = s) :
    Kept (s.handleQueue entry invalid).1 := by
  by_cases hs : (s.handleQueue entry invalid).1 = s
  · rw [hs]
    exact h
  · have hpast : s.past = false := by
      by_contra hne
      exact hs (hp (by simpa using hne))
    unfold MessageRun.handleQueue at hs ⊢
    split at hs
    · exact absurd rfl hs
    · exact absurd rfl hs
    · rename_i q hq
      split at hs
      · exact absurd rfl hs
      · split at hs
        · exact absurd rfl hs
        · rename_i hbytes hlen
          rw [if_neg hbytes, if_neg hlen]
          refine h.accept ?_ rfl rfl hpast
          simp [line, waiting, inHand, hq]

theorem Kept.handleQueueCancel (h : Kept s) (id : String) :
    Kept (s.handleQueueCancel id).1 := by
  unfold MessageRun.handleQueueCancel
  cases hq : s.queueOut with
  | none => exact h
  | some q =>
    dsimp only
    cases hf : q.find? (·.entry.id = id) with
    | none => exact h
    | some w =>
      obtain ⟨hw, l₁, l₂, rfl, hl₁⟩ := List.find?_eq_some_iff_append.mp hf
      have herase : (l₁ ++ w :: l₂).eraseP (·.entry.id = id) = l₁ ++ l₂ := by
        rw [List.eraseP_append_right _ (by simpa using hl₁)]
        simp only [List.eraseP_cons, hw, cond_true]
      have hwait : s.waiting = l₁.map (·.serial) ++ w.serial :: l₂.map (·.serial) := by
        simp [waiting, hq]
      refine h.cancel (s.flushed ++ (s.inHand ++ l₁.map (·.serial))) (l₂.map (·.serial))
        ?_ ?_ rfl rfl ?_
      · simp [line, hwait]
      · simp [line, waiting, herase, inHand]
      · intro hp
        have := h.empty hp
        rw [hwait] at this
        simp at this

theorem Kept.setPhase (h : Kept s) {phase : RunPhase} (hi : s.inHand = [])
    (hn : ({ s with phase := phase } : MessageRun).inHand = [])
    (hp : ({ s with phase := phase } : MessageRun).past = true → s.waiting = []) :
    Kept { s with phase := phase } := by
  refine h.of_line ?_ rfl rfl hp
  show s.flushed ++ (({ s with phase := phase } : MessageRun).inHand ++ s.waiting) = _
  rw [hn, line, hi]

theorem Kept.afterFailure (h : Kept s) {again : Bool} (hi : s.inHand = [])
    (hp : (!(again && decide (s.attempt < maxAttempts))) = true → s.waiting = []) :
    Kept (s.afterFailure again) := by
  unfold MessageRun.afterFailure
  cases hc : again && decide (s.attempt < maxAttempts) with
  | true => exact h.setPhase hi rfl nofun
  | false => exact h.setPhase hi rfl (fun _ => hp (by rw [hc]; rfl))

theorem Kept.endTurn (h : Kept s) {signal : Option PumpSignal}
    {d : Bool} (hphase : s.phase = .streaming signal d) (outstanding : Bool) :
    Kept (s.endTurn signal d outstanding) := by
  have hi : s.inHand = [] := by rw [inHand, hphase]
  unfold MessageRun.endTurn
  split
  · exact h.setPhase hi rfl nofun
  · rename_i w rest hq
    refine h.of_line ?_ rfl rfl nofun
    simp [line, inHand, hphase, waiting, hq]
  · rename_i hq
    -- the flush check found nothing, so the queue is empty when the loop is left
    refine h.setPhase hi (by cases outstanding <;> rfl) (fun _ => ?_)
    cases hqo : s.queueOut with
    | none => rw [waiting, hqo]; rfl
    | some q =>
      cases q with
      | nil => rw [waiting, hqo]; rfl
      | cons w rest => exact absurd hqo (hq w rest)

theorem Kept.closeAttempt (h : Kept s) {signal : Option PumpSignal} {lost : Bool}
    (hphase : s.phase = .closing signal)
    (hl : s.leaves (.closed lost) = true → s.waiting = []) : Kept (s.closeAttempt lost signal) := by
  have hi : s.inHand = [] := by rw [inHand, hphase]
  match signal with
  | none => exact h.setPhase hi rfl (fun _ => h.empty (by rw [past, hphase]))
  | some .retry =>
    refine h.afterFailure hi (fun hp => hl ?_)
    simpa [leaves, hphase] using hp
  | some .fatal =>
    refine h.afterFailure hi (fun hp => hl ?_)
    simpa [leaves, hphase] using hp

theorem handleQueue_frame (s : MessageRun) (entry : QueuedEntry) (invalid : Option String) :
    (s.handleQueue entry invalid).1.phase = s.phase ∧ (s.handleQueue entry invalid).1.aborted = s.aborted ∧
      (s.queueOut = none → (s.handleQueue entry invalid).1.queueOut = none) := by
  unfold MessageRun.handleQueue
  split
  · exact ⟨rfl, rfl, id⟩
  · exact ⟨rfl, rfl, id⟩
  · rename_i hq
    split
    · exact ⟨rfl, rfl, id⟩
    · split
      · exact ⟨rfl, rfl, id⟩
      · exact ⟨rfl, rfl, fun hn => by rw [hq] at hn; cases hn⟩

theorem handleQueueCancel_frame (s : MessageRun) (id : String) : (s.handleQueueCancel id).1.phase = s.phase ∧
      (s.handleQueueCancel id).1.aborted = s.aborted ∧
      (s.queueOut = none → (s.handleQueueCancel id).1.queueOut = none) := by
  unfold MessageRun.handleQueueCancel
  split
  · exact ⟨rfl, rfl, fun hn => hn⟩
  · rename_i hq
    split
    · exact ⟨rfl, rfl, fun hn => by rw [hq] at hn; cases hn⟩
    · exact ⟨rfl, rfl, fun hn => hn⟩

theorem closeAttempt_aborted (s : MessageRun) (lost : Bool) (signal : Option PumpSignal) :
    (s.closeAttempt lost signal).aborted = s.aborted := by
  match signal with
  | none | some .retry | some .fatal => rfl

theorem endTurn_aborted (s : MessageRun) (signal : Option PumpSignal) (d outstanding : Bool) :
    (s.endTurn signal d outstanding).aborted = s.aborted := by
  unfold MessageRun.endTurn
  split <;> rfl

variable {e : MessageEvent}

theorem step_aborted (hs : s.step e = some s')
    (ha : s.aborted = true) : s'.aborted = true := by
  cases e <;> simp only [MessageRun.step] at hs
  case queue entry invalid =>
    cases hs
    rw [(s.handleQueue_frame entry invalid).2.1, ha]
  case queueCancel id =>
    cases hs
    rw [(s.handleQueueCancel_frame id).2.1, ha]
  case abort =>
    cases hs
    rfl
  case turnEnded outstanding =>
    split at hs <;> cases hs
    rw [endTurn_aborted, ha]
  case closed lost =>
    split at hs <;> cases hs
    rw [closeAttempt_aborted, ha]
  all_goals
    split at hs <;> cases hs <;> first
      | rfl
      | exact ha

/-- The record has no queue before `agent_run_events` sets it. -/
def Unopened (s : MessageRun) : Prop := s.phase = .created → s.queueOut = none

theorem step_unopened (h : s.Unopened)
    (hs : s.step e = some s') : s'.Unopened := by
  cases e <;> simp only [MessageRun.step] at hs
  case queue entry invalid =>
    cases hs
    obtain ⟨hphase, -, hq⟩ := s.handleQueue_frame entry invalid
    intro hc
    exact hq (h (hphase ▸ hc))
  case queueCancel id =>
    cases hs
    obtain ⟨hphase, -, hq⟩ := s.handleQueueCancel_frame id
    intro hc
    exact hq (h (hphase ▸ hc))
  case abort =>
    cases hs
    exact h
  case turnEnded outstanding =>
    split at hs <;> cases hs
    unfold MessageRun.endTurn
    split
    · nofun
    · nofun
    · cases outstanding <;> nofun
  case closed lost =>
    split at hs <;> cases hs
    rename_i signal hphase
    match signal with
    | none => nofun
    | some .retry =>
      intro hc
      simp only [closeAttempt, MessageRun.afterFailure] at hc
      split at hc <;> cases hc
    | some .fatal =>
      intro hc
      simp only [closeAttempt, MessageRun.afterFailure] at hc
      split at hc <;> cases hc
  case flushRaises again =>
    split at hs <;> cases hs
    intro hc
    simp only [MessageRun.afterFailure] at hc
    split at hc <;> cases hc
  case attemptRaises again =>
    split at hs
    case h_4 => cases hs
    all_goals
      cases hs
      intro hc
      simp only [MessageRun.afterFailure] at hc
      split at hc <;> cases hc
  all_goals
    split at hs <;> cases hs
    nofun

theorem Kept.step (hu : s.Unopened)
    (h : s.aborted = false → Kept s) (hk : s.KeepsQueue e) (hs : s.step e = some s')
    (ha : s'.aborted = false) : Kept s' := by
  have ha₀ : s.aborted = false := by
    by_contra hne
    rw [step_aborted hs (by simpa using hne)] at ha
    cases ha
  have h := h ha₀
  rcases hk with hk | ⟨hleave, hk⟩
  · rw [ha₀] at hk
    cases hk
  cases e with
  | queue entry invalid =>
    cases hs
    exact h.handleQueue hk
  | queueCancel id =>
    cases hs
    exact h.handleQueueCancel id
  | abort =>
    cases hs
    cases ha
  | shutdown =>
    simp only [MessageRun.step] at hs
    split at hs <;> cases hs
    cases ha
  | begin =>
    simp only [MessageRun.step] at hs
    split at hs <;> cases hs
    rename_i hphase
    refine h.of_line ?_ rfl rfl nofun
    simp [line, inHand, hphase, waiting, hu hphase]
  | attemptStarted =>
    simp only [MessageRun.step] at hs
    split at hs <;> cases hs
    rename_i hphase
    exact h.setPhase (by rw [inHand, hphase]) rfl nofun
  | signal k =>
    simp only [MessageRun.step] at hs
    split at hs <;> cases hs
    rename_i hphase
    exact h.setPhase (by rw [inHand, hphase]) rfl nofun
  | turnEnded outstanding =>
    simp only [MessageRun.step] at hs
    split at hs <;> cases hs
    rename_i hphase
    exact h.endTurn hphase outstanding
  | idleStop =>
    simp only [MessageRun.step] at hs
    split at hs <;> cases hs
    rename_i signal hphase
    refine h.setPhase (by rw [inHand, hphase]) rfl (fun hp => hleave ?_)
    cases signal with
    | none => rw [leaves, hphase]
    | some k => cases hp
  | stopped =>
    simp only [MessageRun.step, ha₀] at hs
    split at hs
    · rename_i hfalse
      cases hfalse
    · cases hs
  | flushed =>
    simp only [MessageRun.step] at hs
    split at hs <;> cases hs
    rename_i w d hphase
    refine h.of_line ?_ rfl rfl nofun
    simp [line, inHand, hphase, waiting]
  | flushRaises again => cases hk
  | attemptRaises again =>
    simp only [MessageRun.step] at hs
    split at hs
    · rename_i hphase
      cases hs
      exact h.afterFailure (by rw [inHand, hphase]) hleave
    · rename_i hphase
      cases hs
      exact h.afterFailure (by rw [inHand, hphase]) hleave
    · rename_i hphase
      cases hs
      exact h.afterFailure (by rw [inHand, hphase]) hleave
    · cases hs
  | closed lost =>
    simp only [MessageRun.step] at hs
    split at hs <;> cases hs
    rename_i signal hphase
    exact h.closeAttempt hphase hleave
  | nextAttempt =>
    simp only [MessageRun.step] at hs
    split at hs <;> cases hs
    rename_i hphase
    refine h.of_line ?_ rfl rfl nofun
    simp [line, inHand, hphase, waiting]
  | abandon =>
    simp only [MessageRun.step, ha₀] at hs
    split at hs
    · rename_i hfalse
      cases hfalse
    · cases hs
  | finish =>
    simp only [MessageRun.step] at hs
    split at hs <;> cases hs
    rename_i hphase
    have hempty := h.empty (by rw [past, hphase])
    refine h.of_line ?_ rfl rfl (fun _ => rfl)
    rw [line, line, hempty]
    simp [inHand, hphase, waiting]

structure Inv (s : MessageRun) : Prop where
  unopened : s.Unopened
  kept : s.aborted = false → Kept s

theorem Inv.init : Inv init := ⟨fun _ => rfl, fun _ => Kept.init⟩

theorem Inv.step (h : Inv s) (hk : s.KeepsQueue e)
    (hs : s.step e = some s') : Inv s' :=
  ⟨step_unopened h.unopened hs, Kept.step h.unopened h.kept hk hs⟩

/-- A run that ends without being aborted and takes none of the exits that forget the queue has
delivered every acknowledged entry. -/
theorem delivered_of_keepsQueue (es : List MessageEvent) (s : MessageRun)
    (hm : RunMeets step KeepsQueue init es) (hr : run step init es = some s)
    (hf : s.phase = .finished) (ha : s.aborted = false) : Delivered s := by
  have hinv : Inv s := run_invariant (fun _ _ _ hi hc hs => Inv.step hi hc hs) Inv.init hm hr
  have hk := hinv.kept ha
  have hempty := hk.empty (by rw [past, hf])
  have hhand : s.inHand = [] := by rw [inHand, hf]
  have hacc := hk.accounted
  have hord := hk.ordered
  rw [hempty, hhand, List.append_nil, List.append_nil] at hacc hord
  exact ⟨hacc, hord⟩

/-- Three entries: one is cancelled, the others are flushed at the next two ends of turn. -/
def twoQueuedTurns : List MessageEvent :=
  [.begin, .attemptStarted, .queue ⟨"a", "one", [], []⟩ none, .queue ⟨"b", "two", [], []⟩ none,
    .queue ⟨"c", "three", [], []⟩ none, .queueCancel "b", .turnEnded false, .flushed,
    .turnEnded false, .flushed, .turnEnded false, .closed false, .finish]

theorem delivered_twoQueuedTurns : ∃ s, run step init twoQueuedTurns = some s ∧
    s.cancelled = [1] ∧ s.flushed = [0, 2] ∧ Delivered s := by
  obtain ⟨s, hr, ht⟩ := exists_run_of_map step init twoQueuedTurns
    (fun s => s.phase = .finished ∧ s.aborted = false ∧ s.cancelled = [1] ∧ s.flushed = [0, 2])
    (by decide)
  obtain ⟨hf, ha, hc, hfl⟩ := of_decide_eq_true ht
  exact ⟨s, hr, hc, hfl, delivered_of_keepsQueue twoQueuedTurns s (by decide) hr hf ha⟩

def lateQueue : List MessageEvent :=
  [.begin, .attemptStarted, .turnEnded false, .queue ⟨"a", "one", [], []⟩ none, .closed false, .finish]

/-- The entry is acknowledged, and neither flushed nor cancelled when the record is terminal. -/
theorem lateQueue_loses_entry : ∃ s, run step init lateQueue = some s ∧
    s.phase = .finished ∧ s.aborted = false ∧ s.acknowledged = 1 ∧ ¬Delivered s := by
  obtain ⟨s, hr, ht⟩ := exists_run_of_map step init lateQueue
    (fun s => s.phase = .finished ∧ s.aborted = false ∧ s.acknowledged = 1 ∧ s.cancelled ++ s.flushed = [])
    (by decide)
  obtain ⟨hf, ha, hack, hnone⟩ := of_decide_eq_true ht
  refine ⟨s, hr, hf, ha, hack, ?_⟩
  intro hd
  have hlen := hd.accounted.length_eq
  rw [hnone, hack] at hlen
  cases hlen

end MessageRun

end PrivaCloud.AgentRunner
