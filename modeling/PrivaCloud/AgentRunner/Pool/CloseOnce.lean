import PrivaCloud.AgentRunner.Runtime.Evolution
import PrivaCloud.AgentRunner.Pool.SessionRuntimePool

/-!
# The close of one runtime

The callers of `SessionRuntime.close`, the shared task of `_close_physical` and the releases of the leases, interleaved
at their awaits. A caller may be cancelled wherever it waits; the close and a release run behind a shield.
-/

namespace PrivaCloud.AgentRunner

open Framework

/-- Who calls `close`: a task that evicts, discards, retires or maintains the runtime or shuts it down, or
the release task of a lease. -/
inductive CloseCaller
  | task (n : Nat)
  | release (lease : Nat)
  deriving DecidableEq

/-- Where a call is suspended, and how it ended. -/
inductive CallPhase
  | idle
  | waiting
  | returned
  | raised
  | cancelled

/-- The arguments of `release`. -/
structure LeaseRelease where
  keepWarm : Bool
  tainted : Bool := false
  preserveOptions : Bool := false

inductive ReleaseTask
  | absent
  /-- in `finish_turn` -/
  | finishing (args : LeaseRelease)
  /-- awaiting the lock of the pool; `failed` says that `finish_turn` raised -/
  | locking (args : LeaseRelease) (closeRuntime failed : Bool)
  /-- awaiting the close -/
  | closing (failed : Bool)
  | kept
  | closed
  | raised

structure CloseSystem where
  runtime : SessionRuntime
  cleanupRequested : Bool := false
  optionsCleaned : Bool := false
  callers : CloseCaller → CallPhase := fun _ => .idle
  leases : Nat → ReleaseTask := fun _ => .absent
  /-- The calls of `RuntimeLease.release`, with their leases. -/
  releases : Nat → Option Nat × CallPhase := fun _ => (none, .idle)
  /-- Every call of `close`, with its `cleanup_options`. -/
  calls : List (CloseCaller × Bool) := []
  /-- how often `_close_physical` and `cleanup_options` were called -/
  closings : Nat := 0
  cleanups : Nat := 0

inductive CloseEvent
  | connected (now : Nat)
  | connectFails
  | startTurn (turn : Nat) (binding : RunBinding) (mode : PermissionMode) (now : Nat)
  | becomesResident (late : Bool)
  | retireLater
  /-- a section of the runtime, those of `_close_physical` among them -/
  | runtime (e : RuntimeEvent)
  | close (n : Nat) (cleanupOptions : Bool)
  /-- the close is over and the caller goes on -/
  | wake (c : CloseCaller)
  | cancel (n : Nat)
  | release (w : Nat) (lease : Nat) (args : LeaseRelease)
  /-- `finish_turn` returns; `poolClosing` is the flag of the pool -/
  | finished (lease : Nat) (unread : List (PeerEnv × Frame)) (safe poolClosing : Bool) (now : Nat)
  | finishFails (lease : Nat)
  /-- the release task has the lock of the pool, which may be over its capacity -/
  | locked (lease : Nat) (overCapacity : Bool)
  | releaseReturns (w : Nat)
  | cancelRelease (w : Nat)

namespace CloseSystem

def init (key : String) (options : RuntimeOptions) (now : Nat) : CloseSystem :=
  { runtime := .create key options now }

def setRuntime (s : CloseSystem) (r : SessionRuntime) : CloseSystem := { s with runtime := r }

def setCaller (s : CloseSystem) (c : CloseCaller) (phase : CallPhase) : CloseSystem :=
  { s with callers := Function.update s.callers c phase }

def setLease (s : CloseSystem) (lease : Nat) (task : ReleaseTask) : CloseSystem :=
  { s with leases := Function.update s.leases lease task }

def setRelease (s : CloseSystem) (w : Nat) (lease : Nat) (phase : CallPhase) : CloseSystem :=
  { s with releases := Function.update s.releases w (some lease, phase) }

def cleanupOptionsOnce (s : CloseSystem) : CloseSystem :=
  if s.optionsCleaned || !s.cleanupRequested then s
  else { s with optionsCleaned := true, cleanups := s.cleanups + 1 }

/-- The `finally` block of `close`. -/
def closeFinally (s : CloseSystem) : CloseSystem :=
  if s.runtime.closeTask = .done then s.cleanupOptionsOnce else s

/-- `close` notes what its caller asks for, and the first one creates the task. -/
def request (s : CloseSystem) (c : CloseCaller) (cleanupOptions : Bool) : CloseSystem :=
  { s with
    runtime := s.runtime.requestClose
    cleanupRequested := s.cleanupRequested || cleanupOptions
    calls := s.calls ++ [(c, cleanupOptions)] }

/-- `close` up to its first suspension; the await of a task that is done does not suspend. -/
def close (s : CloseSystem) (c : CloseCaller) (cleanupOptions : Bool) : CloseSystem :=
  if (s.request c cleanupOptions).runtime.closeTask = .done then
    (s.request c cleanupOptions).closeFinally.setCaller c .returned
  else (s.request c cleanupOptions).setCaller c .waiting

/-- What a section does to the counts and to the options. -/
def around (s : CloseSystem) : RuntimeEvent → CloseSystem
  | .closeBegins => { s with closings := s.closings + 1 }
  | .closeJoined => s.cleanupOptionsOnce
  | .toolCall | .toolReturn | .closeUnbound _ | .closeDisconnected | .frame .. | .receiverFails | .receiverEnds => s

def wakeRelease (s : CloseSystem) : CloseCaller → CloseSystem
  | .task _ => s
  | .release lease =>
    match s.leases lease with
    | .closing failed => s.setLease lease (if failed then .raised else .closed)
    | _ => s

/-- `finish_turn` and the decision that follows it. -/
def finishTurn (s : CloseSystem) (lease : Nat) (args : LeaseRelease) (unread : List (PeerEnv × Frame))
    (safe poolClosing : Bool) (now : Nat) : CloseSystem :=
  let r := s.runtime.dropBinding.finishTurn unread (args.tainted || !safe) args.keepWarm now
  (s.setRuntime r).setLease lease
    (.locking args (!args.keepWarm || !r.healthy || r.retireOnIdle || poolClosing) false)

def step (s : CloseSystem) : CloseEvent → Option CloseSystem
  | .connected now => if s.runtime.state = .starting then some (s.setRuntime (s.runtime.connected now)) else none
  | .connectFails => if s.runtime.state = .starting then some (s.setRuntime s.runtime.poison) else none
  | .startTurn turn binding mode now =>
    if s.runtime.startBlocked then none
    else some (s.setRuntime ((s.runtime.setPermissionMode mode).ownTurn turn binding mode now))
  | .becomesResident late => some (s.setRuntime (s.runtime.moveIn late))
  | .retireLater => some (s.setRuntime s.runtime.retireLater)
  | .runtime e => (s.runtime.evolve e).map fun r => (s.setRuntime r).around e
  | .close n cleanupOptions =>
    match s.callers (.task n) with
    | .idle => some (s.close (.task n) cleanupOptions)
    | _ => none
  | .wake c =>
    match s.callers c with
    | .waiting =>
      if s.runtime.closeTask = .done then some ((s.closeFinally.setCaller c .returned).wakeRelease c) else none
    | _ => none
  | .cancel n =>
    match s.callers (.task n) with
    | .waiting => some (s.closeFinally.setCaller (.task n) .cancelled)
    | _ => none
  | .release w lease args =>
    match s.releases w with
    | (none, .idle) =>
      let s := s.setRelease w lease .waiting
      match s.leases lease with
      | .absent => some (s.setLease lease (.finishing args))
      | _ => some s
    | _ => none
  | .finished lease unread safe poolClosing now =>
    match s.leases lease with
    | .finishing args => some (s.finishTurn lease args unread safe poolClosing now)
    | _ => none
  | .finishFails lease =>
    match s.leases lease with
    | .finishing args => some ((s.setRuntime s.runtime.dropBinding).setLease lease (.locking args true true))
    | _ => none
  | .locked lease overCapacity =>
    match s.leases lease with
    | .locking args closeRuntime failed =>
      if closeRuntime || overCapacity then
        let s := s.setRuntime { s.runtime with resident := false }
        let s := s.close (.release lease) (!args.preserveOptions)
        if s.runtime.closeTask = .done then some (s.setLease lease (if failed then .raised else .closed))
        else some (s.setLease lease (.closing failed))
      else some (s.setLease lease .kept)
    | _ => none
  | .releaseReturns w =>
    match s.releases w with
    | (some lease, .waiting) =>
      match s.leases lease with
      | .kept | .closed => some (s.setRelease w lease .returned)
      | .raised => some (s.setRelease w lease .raised)
      | _ => none
    | _ => none
  | .cancelRelease w =>
    match s.releases w with
    | (some lease, .waiting) => some (s.setRelease w lease .cancelled)
    | _ => none

/-- One physical close; calls that end only after it; options that are cleaned once, after it, when a
caller asked for that. -/
structure ClosedOnce (s : CloseSystem) : Prop where
  physical : s.closings = if s.runtime.closeTask = .absent ∨ s.runtime.closeTask = .scheduled then 0 else 1
  requested : s.runtime.closeTask = .absent ↔ s.calls = []
  returned : ∀ c, s.callers c = .returned → s.runtime.closeTask = .done
  released : ∀ w lease, s.releases w = (some lease, .returned) →
    s.leases lease = .kept ∨ s.leases lease = .closed ∧ s.runtime.closeTask = .done
  atMostOnce : s.cleanups ≤ 1
  cleaned : s.runtime.closeTask = .done → (∃ call ∈ s.calls, call.2 = true) → s.cleanups = 1
  notEarly : s.cleanups = 1 → s.runtime.closeTask = .done ∧ ∃ call ∈ s.calls, call.2 = true

structure Counted (s : CloseSystem) : Prop where
  closings : s.closings = if s.runtime.closeTask = .absent ∨ s.runtime.closeTask = .scheduled then 0 else 1
  calls : s.runtime.closeTask = .absent ↔ s.calls = []
  requested : s.cleanupRequested = s.calls.any (·.2)
  cleanups : s.cleanups = if s.optionsCleaned then 1 else 0
  early : s.optionsCleaned = true → s.runtime.closeTask = .done ∧ s.cleanupRequested = true

/-- After the close the options are cleaned if anybody asked for it. -/
structure Settled (s : CloseSystem) : Prop extends Counted s where
  cleaned : s.runtime.closeTask = .done → s.cleanupRequested = true → s.optionsCleaned = true

variable {s : CloseSystem}

theorem Counted.cleanup (h : Counted s) (hdone : s.runtime.closeTask = .done) : Settled s.cleanupOptionsOnce := by
  unfold cleanupOptionsOnce
  split
  · rename_i hskip
    refine ⟨h, fun _ hr => ?_⟩
    simpa [hr] using hskip
  · rename_i hrun
    simp only [Bool.or_eq_true, Bool.not_eq_true', not_or, Bool.not_eq_true, Bool.not_eq_false] at hrun
    have hnone : s.cleanups = 0 := by rw [h.cleanups, hrun.1]; rfl
    exact ⟨⟨h.closings, h.calls, h.requested, by rw [hnone]; rfl, fun _ => ⟨hdone, hrun.2⟩⟩, fun _ _ => rfl⟩

private theorem Settled.closeFinally_eq (h : Settled s) : s.closeFinally = s := by
  unfold closeFinally cleanupOptionsOnce
  split
  · rename_i hdone
    split
    · rfl
    · rename_i hrun
      simp only [Bool.or_eq_true, Bool.not_eq_true', not_or, Bool.not_eq_true, Bool.not_eq_false] at hrun
      have hcleaned := h.cleaned hdone hrun.2
      rw [hrun.1] at hcleaned
      cases hcleaned
  · rfl

variable {r : SessionRuntime}

private theorem Settled.setRuntime (h : Settled s) (hr : r.closeTask = s.runtime.closeTask) :
    Settled (s.setRuntime r) := by
  obtain ⟨⟨hclosings, hcalls, hrequested, hcleanups, hearly⟩, hcleaned⟩ := h
  rw [← hr] at hclosings hcalls hearly hcleaned
  exact ⟨⟨hclosings, hcalls, hrequested, hcleanups, hearly⟩, hcleaned⟩

private theorem Counted.moves (h : Counted s) {closings : Nat} (hold : s.runtime.closeTask ≠ .absent)
    (hrunning : s.runtime.closeTask ≠ .done) (hnew : r.closeTask ≠ .absent)
    (hclosings : closings = if r.closeTask = .absent ∨ r.closeTask = .scheduled then 0 else 1) :
    Counted { s with runtime := r, closings := closings } where
  closings := hclosings
  calls := iff_of_false hnew (mt h.calls.mpr hold)
  requested := h.requested
  cleanups := h.cleanups
  early hc := absurd (h.early hc).1 hrunning

private theorem Settled.runtime (h : Settled s) {e : RuntimeEvent} (hr : s.runtime.evolve e = some r) :
    Settled ((s.setRuntime r).around e) := by
  have hstep := SessionRuntime.closeStep_evolve hr
  have hclosings := h.closings
  generalize hold : s.runtime.closeTask = task at hstep hclosings
  generalize hnew : r.closeTask = task' at hstep
  cases hstep with
  | stays _ _ he =>
    have hset := h.setRuntime (hnew.trans hold.symm)
    cases e with
    | closeBegins => exact absurd rfl he.1
    | closeJoined => exact absurd rfl he.2
    | toolCall | toolReturn | closeUnbound | closeDisconnected | frame | receiverFails | receiverEnds => exact hset
  | drains =>
    refine ⟨h.moves (by simp [hold]) (by simp [hold]) (by simp [CloseSystem.setRuntime, hnew]) ?_, fun hd => ?_⟩
    · simp [CloseSystem.setRuntime, hclosings, hnew]
    · exact absurd (hnew.symm.trans hd) (by decide)
  | begins =>
    refine ⟨h.moves (by simp [hold]) (by simp [hold]) (by simp [CloseSystem.setRuntime, hnew]) ?_, fun hd => ?_⟩
    · simp [CloseSystem.setRuntime, hclosings, hnew]
    · exact absurd (hnew.symm.trans hd) (by decide)
  | unbound timedOut =>
    refine ⟨h.moves (by simp [hold]) (by simp [hold]) (by simp [hnew]) ?_, fun hd => ?_⟩
    · simp [hclosings, hnew]
    · exact absurd (hnew.symm.trans hd) (by decide)
  | disconnected =>
    refine ⟨h.moves (by simp [hold]) (by simp [hold]) (by simp [hnew]) ?_, fun hd => ?_⟩
    · simp [hclosings, hnew]
    · exact absurd (hnew.symm.trans hd) (by decide)
  | joined =>
    have hmoves : Counted (s.setRuntime r) :=
      h.moves (by simp [hold]) (by simp [hold]) (by simp [hnew]) (by simp [hclosings, hnew])
    exact hmoves.cleanup hnew

private theorem requestClose_closeTask (r : SessionRuntime) :
    r.requestClose.closeTask = if r.closeTask = .absent then .scheduled else r.closeTask := by
  unfold SessionRuntime.requestClose
  split
  · rfl
  · rfl

theorem Settled.setCaller (h : Settled s) (c : CloseCaller) (phase : CallPhase) : Settled (s.setCaller c phase) where
  toCounted := ⟨h.closings, h.calls, h.requested, h.cleanups, h.early⟩
  cleaned := h.cleaned

theorem Settled.setLease (h : Settled s) (lease : Nat) (task : ReleaseTask) : Settled (s.setLease lease task) where
  toCounted := ⟨h.closings, h.calls, h.requested, h.cleanups, h.early⟩
  cleaned := h.cleaned

theorem Settled.setRelease (h : Settled s) (w lease : Nat) (phase : CallPhase) : Settled (s.setRelease w lease phase) where
  toCounted := ⟨h.closings, h.calls, h.requested, h.cleanups, h.early⟩
  cleaned := h.cleaned

private theorem Settled.request (h : Settled s) (c : CloseCaller) (cleanupOptions : Bool) :
    Counted (s.request c cleanupOptions) where
  closings := by
    have hclosings := h.closings
    simp only [CloseSystem.request, requestClose_closeTask]
    by_cases hc : s.runtime.closeTask = .absent
    · simpa [hc] using hclosings
    · simpa [hc] using hclosings
  calls := by
    simp only [CloseSystem.request, requestClose_closeTask]
    by_cases hc : s.runtime.closeTask = .absent
    · simp [hc]
    · simp [hc]
  requested := by simp [CloseSystem.request, h.requested, List.any_append]
  cleanups := h.cleanups
  early hc := by
    obtain ⟨hdone, hrequested⟩ := h.early hc
    refine ⟨?_, ?_⟩
    · simp [CloseSystem.request, requestClose_closeTask, hdone]
    · simp [CloseSystem.request, hrequested]

private theorem Settled.close (h : Settled s) (c : CloseCaller) (cleanupOptions : Bool) :
    Settled (s.close c cleanupOptions) := by
  have hcounted := h.request c cleanupOptions
  unfold CloseSystem.close
  split
  · rename_i hdone
    unfold closeFinally
    rw [if_pos hdone]
    exact (hcounted.cleanup hdone).setCaller c .returned
  · rename_i hrunning
    have hsettled : Settled (s.request c cleanupOptions) := ⟨hcounted, fun hdone => absurd hdone hrunning⟩
    exact hsettled.setCaller c .waiting

structure Ended (s : CloseSystem) : Prop where
  returned : ∀ c, s.callers c = .returned → s.runtime.closeTask = .done
  closed : ∀ lease, s.leases lease = .closed → s.runtime.closeTask = .done
  released : ∀ w lease, s.releases w = (some lease, .returned) →
    s.leases lease = .kept ∨ s.leases lease = .closed

private theorem Ended.setRuntime (h : Ended s)
    (hr : s.runtime.closeTask = .done → r.closeTask = .done) : Ended (s.setRuntime r) where
  returned c hc := hr (h.returned c hc)
  closed lease hl := hr (h.closed lease hl)
  released := h.released

private theorem Ended.cleanup (h : Ended s) : Ended s.cleanupOptionsOnce := by
  unfold cleanupOptionsOnce
  split
  · exact h
  · exact ⟨h.returned, h.closed, h.released⟩

variable {phase : CallPhase}

private theorem Ended.setCaller (h : Ended s) (c : CloseCaller)
    (hphase : phase = .returned → s.runtime.closeTask = .done) : Ended (s.setCaller c phase) where
  returned c' hc' := by
    by_cases heq : c' = c
    · subst heq
      simp only [CloseSystem.setCaller, Function.update_self] at hc'
      exact hphase hc'
    · simp only [CloseSystem.setCaller, Function.update_of_ne heq] at hc'
      exact h.returned c' hc'
  closed := h.closed
  released := h.released

variable {lease : Nat}

private theorem Ended.setLease (h : Ended s) {task : ReleaseTask}
    (hopen : s.leases lease ≠ .kept ∧ s.leases lease ≠ .closed)
    (hclosed : task = .closed → s.runtime.closeTask = .done) : Ended (s.setLease lease task) where
  returned := h.returned
  closed lease' hl := by
    by_cases heq : lease' = lease
    · subst heq
      simp only [CloseSystem.setLease, Function.update_self] at hl
      exact hclosed hl
    · simp only [CloseSystem.setLease, Function.update_of_ne heq] at hl
      exact h.closed lease' hl
  released w lease' hw := by
    have hended := h.released w lease' hw
    by_cases heq : lease' = lease
    · rw [heq] at hended
      exact absurd hended (not_or.mpr hopen)
    · simpa only [CloseSystem.setLease, Function.update_of_ne heq] using hended

private theorem Ended.setRelease (h : Ended s) (w : Nat)
    (hphase : phase = .returned → s.leases lease = .kept ∨ s.leases lease = .closed) :
    Ended (s.setRelease w lease phase) where
  returned := h.returned
  closed := h.closed
  released w' lease' hw := by
    by_cases heq : w' = w
    · subst heq
      simp only [CloseSystem.setRelease, Function.update_self, Prod.mk.injEq, Option.some.injEq] at hw
      rw [← hw.1]
      exact hphase hw.2
    · simp only [CloseSystem.setRelease, Function.update_of_ne heq] at hw
      exact h.released w' lease' hw

theorem Ended.close (h : Ended s) (c : CloseCaller) (cleanupOptions : Bool) : Ended (s.close c cleanupOptions) := by
  have hkept : s.runtime.closeTask = .done → s.runtime.requestClose.closeTask = .done := by
    intro hdone
    rw [requestClose_closeTask, hdone]
    rfl
  have hrequest : Ended (s.request c cleanupOptions) :=
    ⟨fun c' hc' => hkept (h.returned c' hc'), fun lease hl => hkept (h.closed lease hl), h.released⟩
  unfold CloseSystem.close
  split
  · rename_i hdone
    have hfinally : (s.request c cleanupOptions).closeFinally = (s.request c cleanupOptions).cleanupOptionsOnce := by
      unfold closeFinally
      rw [if_pos hdone]
    have hruntime : (s.request c cleanupOptions).cleanupOptionsOnce.runtime = (s.request c cleanupOptions).runtime := by
      unfold cleanupOptionsOnce
      split
      · rfl
      · rfl
    rw [hfinally]
    exact hrequest.cleanup.setCaller c fun _ => by rw [hruntime, hdone]
  · exact hrequest.setCaller c CallPhase.noConfusion

private theorem close_leases (s : CloseSystem) (c : CloseCaller) (cleanupOptions : Bool) :
    (s.close c cleanupOptions).leases = s.leases := by
  have hcleanup (t : CloseSystem) : t.cleanupOptionsOnce.leases = t.leases := by
    unfold cleanupOptionsOnce
    split
    · rfl
    · rfl
  have hfinally (t : CloseSystem) : t.closeFinally.leases = t.leases := by
    unfold closeFinally
    split
    · exact hcleanup t
    · rfl
  unfold CloseSystem.close
  split
  · exact hfinally (s.request c cleanupOptions)
  · rfl

private theorem Ended.wakeRelease (h : Ended s) (hdone : s.runtime.closeTask = .done) (c : CloseCaller) :
    Ended (s.wakeRelease c) := by
  cases c with
  | task n => exact h
  | release lease =>
    simp only [CloseSystem.wakeRelease]
    split
    · rename_i hlease
      exact h.setLease (by simp [hlease]) fun _ => hdone
    · exact h

private theorem Settled.wakeRelease (h : Settled s) (c : CloseCaller) : Settled (s.wakeRelease c) := by
  cases c with
  | task n => exact h
  | release lease =>
    simp only [CloseSystem.wakeRelease]
    split
    · exact h.setLease lease _
    · exact h

private theorem Ended.runtime (h : Ended s) {e : RuntimeEvent} (hr : s.runtime.evolve e = some r) :
    Ended ((s.setRuntime r).around e) := by
  have hstays : s.runtime.closeTask = .done → r.closeTask = .done := by
    intro hdone
    have hstep := SessionRuntime.closeStep_evolve hr
    rw [hdone] at hstep
    generalize r.closeTask = task at hstep
    cases hstep with
    | stays => rfl
  have hset := h.setRuntime hstays
  cases e with
  | closeBegins => exact ⟨hset.returned, hset.closed, hset.released⟩
  | closeJoined => exact hset.cleanup
  | toolCall | toolReturn | closeUnbound | closeDisconnected | frame | receiverFails | receiverEnds => exact hset

structure Inv (s : CloseSystem) : Prop where
  settled : Settled s
  ended : Ended s

namespace Inv

private theorem setRuntime (h : Inv s) (hr : r.closeTask = s.runtime.closeTask) : Inv (s.setRuntime r) :=
  ⟨h.settled.setRuntime hr, h.ended.setRuntime fun hdone => hr.trans hdone⟩

private theorem close (h : Inv s) (c : CloseCaller) (cleanupOptions : Bool) : Inv (s.close c cleanupOptions) :=
  ⟨h.settled.close c cleanupOptions, h.ended.close c cleanupOptions⟩

private theorem setLease (h : Inv s) {task : ReleaseTask}
    (hopen : s.leases lease ≠ .kept ∧ s.leases lease ≠ .closed)
    (hclosed : task = .closed → s.runtime.closeTask = .done) : Inv (s.setLease lease task) :=
  ⟨h.settled.setLease lease task, h.ended.setLease hopen hclosed⟩

private theorem setRelease (h : Inv s) (w : Nat)
    (hphase : phase = .returned → s.leases lease = .kept ∨ s.leases lease = .closed) :
    Inv (s.setRelease w lease phase) :=
  ⟨h.settled.setRelease w lease phase, h.ended.setRelease w hphase⟩

private theorem closedOnce (h : Inv s) : s.ClosedOnce := by
  obtain ⟨⟨⟨hclosings, hcalls, hrequested, hcleanups, hearly⟩, hcleaned⟩, hreturned, hclosed, hreleased⟩ := h
  have hasked : s.cleanupRequested = true ↔ ∃ call ∈ s.calls, call.2 = true := by
    rw [hrequested]
    exact List.any_eq_true
  refine ⟨hclosings, hcalls, hreturned, ?_, ?_, ?_, ?_⟩
  · intro w lease hw
    exact (hreleased w lease hw).imp_right fun hc => ⟨hc, hclosed lease hc⟩
  · rw [hcleanups]
    split
    · exact Nat.le_refl 1
    · exact Nat.zero_le 1
  · intro hdone hask
    rw [hcleanups, hcleaned hdone (hasked.mpr hask)]
    rfl
  · intro hone
    have hopt : s.optionsCleaned = true := by
      by_contra hn
      rw [hcleanups, if_neg hn] at hone
      cases hone
    exact ⟨(hearly hopt).1, hasked.mp (hearly hopt).2⟩

private theorem locked (h : Inv s) {args : LeaseRelease} {closeRuntime failed : Bool}
    (hlease : s.leases lease = .locking args closeRuntime failed) {overCapacity : Bool} {s' : CloseSystem}
    (hs : s.step (.locked lease overCapacity) = some s') : Inv s' := by
  simp only [CloseSystem.step, hlease] at hs
  have hopen {t : CloseSystem} (ht : t.leases = s.leases) : t.leases lease ≠ .kept ∧ t.leases lease ≠ .closed := by
    rw [ht, hlease]
    simp
  split at hs
  · have hevicted : Inv (s.setRuntime { s.runtime with resident := false }) := h.setRuntime rfl
    have hclose := hevicted.close (.release lease) (!args.preserveOptions)
    have hleases := close_leases (s.setRuntime { s.runtime with resident := false }) (.release lease)
      (!args.preserveOptions)
    split at hs <;> cases hs
    · rename_i hdone
      exact hclose.setLease (hopen hleases) fun _ => hdone
    · exact hclose.setLease (hopen hleases) ReleaseTask.noConfusion
  · cases hs
    exact h.setLease (hopen rfl) ReleaseTask.noConfusion

private theorem step (h : Inv s) {e : CloseEvent} {s' : CloseSystem} (hs : s.step e = some s') : Inv s' := by
  cases e with
  | connected now =>
    simp only [CloseSystem.step] at hs
    split at hs <;> cases hs
    exact h.setRuntime rfl
  | connectFails =>
    simp only [CloseSystem.step] at hs
    split at hs <;> cases hs
    exact h.setRuntime rfl
  | startTurn turn binding mode now =>
    simp only [CloseSystem.step] at hs
    split at hs <;> cases hs
    exact h.setRuntime rfl
  | becomesResident late =>
    cases hs
    exact h.setRuntime rfl
  | retireLater =>
    cases hs
    exact h.setRuntime rfl
  | runtime e =>
    obtain ⟨r, hr, rfl⟩ := Option.map_eq_some_iff.mp hs
    exact ⟨h.settled.runtime hr, h.ended.runtime hr⟩
  | close n cleanupOptions =>
    simp only [CloseSystem.step] at hs
    split at hs <;> cases hs
    exact h.close (.task n) cleanupOptions
  | wake c =>
    simp only [CloseSystem.step] at hs
    split at hs
    · split at hs <;> cases hs
      rename_i hdone
      rw [h.settled.closeFinally_eq]
      have hwoken : Ended (s.setCaller c .returned) := h.ended.setCaller c fun _ => hdone
      exact ⟨(h.settled.setCaller c .returned).wakeRelease c, hwoken.wakeRelease hdone c⟩
    · cases hs
  | cancel n =>
    simp only [CloseSystem.step] at hs
    split at hs <;> cases hs
    rw [h.settled.closeFinally_eq]
    exact ⟨h.settled.setCaller _ _, h.ended.setCaller _ CallPhase.noConfusion⟩
  | release w lease args =>
    simp only [CloseSystem.step] at hs
    have hwaits : Inv (s.setRelease w lease .waiting) := h.setRelease w CallPhase.noConfusion
    split at hs
    · split at hs <;> cases hs
      · rename_i hlease
        exact hwaits.setLease (by rw [hlease]; simp) ReleaseTask.noConfusion
      · exact hwaits
    · cases hs
  | finished lease unread safe poolClosing now =>
    simp only [CloseSystem.step] at hs
    split at hs <;> cases hs
    rename_i args hlease
    have hclose : (s.runtime.dropBinding.finishTurn unread (args.tainted || !safe) args.keepWarm now).closeTask =
        s.runtime.closeTask := by
      rw [SessionRuntime.finishTurn_eq, SessionRuntime.dropBinding_eq]
    exact (h.setRuntime hclose).setLease (by simp [CloseSystem.setRuntime, hlease]) ReleaseTask.noConfusion
  | finishFails lease =>
    simp only [CloseSystem.step] at hs
    split at hs <;> cases hs
    rename_i args hlease
    have hclose : s.runtime.dropBinding.closeTask = s.runtime.closeTask := by rw [SessionRuntime.dropBinding_eq]
    exact (h.setRuntime hclose).setLease (by simp [CloseSystem.setRuntime, hlease]) ReleaseTask.noConfusion
  | locked lease overCapacity =>
    cases hlease : s.leases lease with
    | locking args closeRuntime failed => exact h.locked hlease hs
    | absent | finishing | closing | kept | closed | raised =>
      simp only [CloseSystem.step, hlease] at hs
      cases hs
  | releaseReturns w =>
    simp only [CloseSystem.step] at hs
    split at hs
    · split at hs <;> cases hs
      · rename_i hlease
        exact h.setRelease w fun _ => .inl hlease
      · rename_i hlease
        exact h.setRelease w fun _ => .inr hlease
      · exact h.setRelease w CallPhase.noConfusion
    · cases hs
  | cancelRelease w =>
    simp only [CloseSystem.step] at hs
    split at hs <;> cases hs
    exact h.setRelease w CallPhase.noConfusion

end Inv

private theorem inv_init (key : String) (options : RuntimeOptions) (now : Nat) : Inv (init key options now) where
  settled := ⟨⟨rfl, ⟨fun _ => rfl, fun _ => rfl⟩, rfl, rfl, fun hc => absurd hc (by simp [init])⟩,
    fun _ hr => absurd hr (by simp [init])⟩
  ended := ⟨fun _ hc => CallPhase.noConfusion hc, fun _ hl => ReleaseTask.noConfusion hl,
    fun _ _ hw => absurd hw (by simp [init])⟩

/-- In every run a runtime is physically closed once, no call of `close` or `release` returns before that,
and its options are cleaned once, after the close, if any caller asked for it. -/
theorem closedOnce_of_run (key : String) (options : RuntimeOptions) (now : Nat) {es : List CloseEvent}
    {s : CloseSystem} (hr : run step (init key options now) es = some s) : s.ClosedOnce :=
  (run_invariant_always (fun _ _ _ h hs => Inv.step h hs) (inv_init key options now) hr).closedOnce

/-- A waiter that asked for the cleanup is cancelled during the close, and the release of the lease keeps
the options. -/
def cancelledWaiterRun : List CloseEvent :=
  [.connected 1, .release 0 0 { keepWarm := false, preserveOptions := true }, .finished 0 [] true false 2, .close 0 true,
    .locked 0 false, .runtime .closeBegins, .cancel 0, .runtime .closeDisconnected, .runtime .receiverEnds,
    .runtime .closeJoined, .wake (.release 0), .releaseReturns 0, .close 1 true]

theorem closedOnce_cancelledWaiter :
    ∃ s, run step (init "s1" {} 0) cancelledWaiterRun = some s ∧ (s.closings, s.cleanups) = (1, 1) ∧ s.ClosedOnce := by
  obtain ⟨s, hr, hcounts⟩ := exists_run_of_map step (init "s1" {} 0) cancelledWaiterRun
    (fun s => decide ((s.closings, s.cleanups) = (1, 1))) (by decide)
  exact ⟨s, hr, of_decide_eq_true hcounts, closedOnce_of_run "s1" {} 0 hr⟩

end CloseSystem

end PrivaCloud.AgentRunner
