import PrivaCloud.Framework.Processes

/-!
# Stopping the worker of a bot

The thread of the connection takes messages and menu taps and schedules their coroutines on the loop; `stop` cancels
the turns that have registered themselves in `_inflight` by then.
-/

namespace PrivaCloud.ChannelConnector

open Framework

/-- `_on_message`, or `handle_menu` and `handle_bot_menu`, which send an acknowledgement first -/
inductive TurnEntry
  | message
  | menu
  deriving DecidableEq

inductive WorkerTurnPhase
  /-- on the thread of the connection, past the check of `_stopping` (and of `_ACTIVE`) -/
  | dispatching (entry : TurnEntry)
  /-- after `run_coroutine_threadsafe` -/
  | scheduled (entry : TurnEntry)
  /-- awaiting what is sent before `_on_message` -/
  | acking
  /-- in `_inflight`, before the dialer is called -/
  | handling
  | dialing
  | settling
  | ended
  deriving DecidableEq

def WorkerTurnPhase.inflight : WorkerTurnPhase → Bool
  | .handling | .dialing | .settling => true
  | .dispatching _ | .scheduled _ | .acking | .ended => false

structure WorkerTurn where
  phase : WorkerTurnPhase
  cancelled : Bool := false
  /-- It was delivered after `stop` began. -/
  late : Bool
  deriving DecidableEq

inductive WorkerTurnStep
  | schedule
  | start
  | register
  | dial
  | answered
  | finish

/-- A cancelled turn gets its `CancelledError` where it waits, so it does not get to the dialer. -/
def WorkerTurn.next (turn : WorkerTurn) : WorkerTurnStep → Option WorkerTurn
  | .schedule =>
    match turn.phase with
    | .dispatching entry => some { turn with phase := .scheduled entry }
    | _ => none
  | .start =>
    match turn.phase with
    | .scheduled .message => some { turn with phase := .handling }
    | .scheduled .menu => some { turn with phase := .acking }
    | _ => none
  | .register => if turn.phase = .acking then some { turn with phase := .handling } else none
  | .dial => if turn.phase = .handling ∧ turn.cancelled = false then some { turn with phase := .dialing } else none
  | .answered => if turn.phase = .dialing then some { turn with phase := .settling } else none
  | .finish =>
    match turn.phase with
    | .scheduled _ | .ended => none
    | _ => some { turn with phase := .ended }

theorem WorkerTurn.next_spec {turn turn' : WorkerTurn} {step : WorkerTurnStep} (h : turn.next step = some turn') :
    turn'.late = turn.late ∧ turn'.cancelled = turn.cancelled ∧ turn.phase ≠ .ended := by
  unfold WorkerTurn.next at h
  split at h <;> split at h <;> cases h <;> simp_all

inductive StopPhase
  | none
  /-- awaiting the tasks of `self._inflight` that were cancelled -/
  | waiting
  /-- in `self._transport.stop()`, which sets `_stopping` at once -/
  | closing
  | returned
  deriving DecidableEq

structure AppWorker where
  /-- `_ACTIVE[self.account_id] is self` -/
  active : Bool := true
  /-- `self._transport._stopping` -/
  stopping : Bool := false
  turns : List WorkerTurn := []
  stop : StopPhase := .none

inductive WorkerEvent
  | deliver
  | tap
  | turn (i : Nat) (step : WorkerTurnStep)
  | stop
  /-- Every cancelled turn has settled. -/
  | settled
  | closed

namespace AppWorker

variable (w : AppWorker)

def accept (entry : TurnEntry) : AppWorker :=
  { w with turns := w.turns ++ [{ phase := .dispatching entry, late := w.stop ≠ .none }] }

/-- `for t in tasks: t.cancel()` -/
def cancelInflight : List WorkerTurn :=
  w.turns.map fun turn => if turn.phase.inflight then { turn with cancelled := true } else turn

def step : WorkerEvent → Option AppWorker
  | .deliver => some (if w.stopping then w else w.accept .message)
  | .tap => some (if w.stopping || !w.active then w else w.accept .menu)
  | .turn i step =>
    match w.turns[i]? with
    | none => none
    | some turn => (turn.next step).map fun turn => { w with turns := w.turns.set i turn }
  | .stop =>
    if w.stop = .none then some { w with active := false, turns := w.cancelInflight, stop := .waiting } else none
  | .settled =>
    if w.stop = .waiting ∧ ∀ turn ∈ w.turns, turn.cancelled = true → turn.phase = .ended then
      some { w with stopping := true, stop := .closing }
    else none
  | .closed => if w.stop = .closing then some { w with stop := .returned } else none

/-- After `stop` has returned every turn is over, and those that came after it began have been cancelled. -/
def Stopped : Prop :=
  w.stop = .returned → ∀ turn ∈ w.turns, turn.phase = .ended ∧ (turn.late = true → turn.cancelled = true)

/-- `stop` begins when every turn that was accepted has registered itself, and no message is delivered between its
beginning and the stop of the transport. -/
def Careful : WorkerEvent → Prop
  | .deliver => w.stop = .none ∨ w.stopping = true
  | .stop => ∀ turn ∈ w.turns, turn.phase.inflight = true ∨ turn.phase = .ended
  | .tap | .turn .. | .settled | .closed => True

instance (e : WorkerEvent) : Decidable (w.Careful e) := by
  cases e <;> unfold Careful <;> infer_instance

structure Inv (w : AppWorker) : Prop where
  prompt : ∀ turn ∈ w.turns, turn.late = false
  stopping : w.stopping = true ↔ w.stop = .closing ∨ w.stop = .returned
  inactive : w.stop ≠ .none → w.active = false
  waited : w.stop = .waiting → ∀ turn ∈ w.turns, turn.cancelled = true ∨ turn.phase = .ended
  ended : w.stop = .closing ∨ w.stop = .returned → ∀ turn ∈ w.turns, turn.phase = .ended

variable {w} {w' : AppWorker}

theorem Inv.accept (h : w.Inv) (hstop : w.stop = .none) (entry : TurnEntry) : (w.accept entry).Inv := by
  refine ⟨?_, h.stopping, h.inactive, fun hwait => ?_, fun hclose => ?_⟩
  · intro turn hturn
    rcases List.mem_append.mp hturn with hturn | hturn
    · exact h.prompt turn hturn
    · rw [List.mem_singleton.mp hturn]
      simp [hstop]
  · exact absurd (hstop.symm.trans hwait) (by simp)
  · exact absurd hclose (by simp [AppWorker.accept, hstop])

theorem Inv.step (h : w.Inv) {e : WorkerEvent} (hc : w.Careful e) (hs : w.step e = some w') : w'.Inv := by
  cases e with
  | deliver =>
    obtain rfl := Option.some.inj hs
    split
    · exact h
    · rename_i hopen
      exact h.accept (hc.resolve_right hopen) .message
  | tap =>
    obtain rfl := Option.some.inj hs
    split
    · exact h
    · rename_i hopen
      -- a worker that is being stopped is no longer found
      refine h.accept (by_contra fun hstop => hopen ?_) .menu
      rw [h.inactive hstop]
      simp
  | turn i step =>
    simp only [AppWorker.step] at hs
    split at hs
    · cases hs
    · rename_i turn hturn
      obtain ⟨turn', hnext, rfl⟩ := Option.map_eq_some_iff.mp hs
      obtain ⟨hlate, hcancelled, hlive⟩ := WorkerTurn.next_spec hnext
      have hmem := List.mem_of_getElem? hturn
      have hall {p : WorkerTurn → Prop} (hold : ∀ other ∈ w.turns, p other) (hnew : p turn') :
          ∀ other ∈ w.turns.set i turn', p other := by
        intro other hother
        rcases Program.mem_set_cases hother with rfl | hother
        · exact hnew
        · exact hold other hother
      refine ⟨hall h.prompt (hlate.trans (h.prompt turn hmem)), h.stopping, h.inactive, fun hwait => ?_,
        fun hclose => absurd (h.ended hclose turn hmem) hlive⟩
      exact hall (h.waited hwait) (.inl (hcancelled.trans ((h.waited hwait turn hmem).resolve_right hlive)))
  | stop =>
    simp only [AppWorker.step] at hs
    split at hs <;> cases hs
    rename_i hstop
    have hstopping : w.stopping = false := by
      rw [← Bool.not_eq_true, h.stopping, hstop]
      simp
    refine ⟨fun turn hturn => ?_, by simp [hstopping], fun _ => rfl, fun _ turn hturn => ?_, fun hclose => by simp at hclose⟩
    · obtain ⟨turn, hmem, rfl⟩ := List.mem_map.mp hturn
      split
      · exact h.prompt turn hmem
      · exact h.prompt turn hmem
    · obtain ⟨turn, hmem, rfl⟩ := List.mem_map.mp hturn
      split
      · exact .inl rfl
      · rename_i hout
        exact .inr ((hc turn hmem).resolve_left hout)
  | settled =>
    simp only [AppWorker.step] at hs
    split at hs <;> cases hs
    rename_i hready
    refine ⟨h.prompt, by simp, fun _ => h.inactive (by simp [hready.1]), fun hwait => by simp at hwait, ?_⟩
    exact fun _ turn hturn => (h.waited hready.1 turn hturn).elim (hready.2 turn hturn) id
  | closed =>
    simp only [AppWorker.step] at hs
    split at hs <;> cases hs
    rename_i hclosing
    refine ⟨h.prompt, by simpa [hclosing] using h.stopping, fun _ => h.inactive (by simp [hclosing]),
      fun hwait => by simp at hwait, fun _ => h.ended (.inl hclosing)⟩

/-- A worker that is stopped between messages leaves nothing behind. -/
theorem stopped_of_careful {es : List WorkerEvent} (hm : RunMeets step Careful {} es)
    (hr : run step ({} : AppWorker) es = some w) : w.Stopped := by
  have hinit : Inv {} := ⟨by simp, by simp, by simp, by simp, by simp⟩
  have h := run_invariant (fun _ _ _ hi hc hs => Inv.step hi hc hs) hinit hm hr
  intro hreturned turn hturn
  refine ⟨h.ended (.inr hreturned) turn hturn, fun hlate => ?_⟩
  rw [h.prompt turn hturn] at hlate
  cases hlate

def stoppedInDial : List WorkerEvent :=
  [.deliver, .turn 0 .schedule, .turn 0 .start, .turn 0 .dial, .stop, .tap, .turn 0 .finish, .settled, .deliver, .closed]

theorem stopped_stoppedInDial : ∃ w, run step ({} : AppWorker) stoppedInDial = some w ∧
    w.stop = .returned ∧ w.turns.length = 1 ∧ w.Stopped := by
  obtain ⟨w, hr, hw⟩ := exists_run_of_decide step {} stoppedInDial (p := fun w => w.stop = .returned ∧ w.turns.length = 1)
    (fun _ h => h) (by decide)
  exact ⟨w, hr, hw.1, hw.2, stopped_of_careful (by decide) hr⟩

/-- A message comes while the cancelled turn settles. -/
def lateMessage : List WorkerEvent :=
  [.deliver, .turn 0 .schedule, .turn 0 .start, .stop, .deliver, .turn 1 .schedule, .turn 1 .start, .turn 0 .finish,
    .settled, .closed, .turn 1 .dial]

theorem not_stopped_lateMessage : ∃ w, run step ({} : AppWorker) lateMessage = some w ∧
    w.stop = .returned ∧ ⟨.dialing, false, true⟩ ∈ w.turns ∧ ¬ w.Stopped := by
  obtain ⟨w, hr, hreturned, hmem⟩ := exists_run_of_decide step {} lateMessage
    (p := fun w => w.stop = .returned ∧ (⟨.dialing, false, true⟩ : WorkerTurn) ∈ w.turns) (fun _ h => h) (by decide)
  refine ⟨w, hr, hreturned, hmem, fun h => ?_⟩
  cases (h hreturned _ hmem).1

end AppWorker

end PrivaCloud.ChannelConnector
