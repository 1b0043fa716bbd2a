import Mathlib.Data.Set.Card
import PrivaCloud.AgentRunner.Permission.Bridge

/-!
# Isolation between runs

A callback is answered by the run that was bound when it was admitted, an unbound bridge denies, a stale
`unbind` changes nothing, and once `unbind` has returned true none of its callbacks is executing: `inflight`
is the number of executing callbacks, whatever their generation.
-/

namespace PrivaCloud.AgentRunner

open Framework

variable {Input : Type}

namespace Callback

@[simp] theorem moveTo_admission (c : Callback Input) (phase : CallbackPhase Input) :
    (c.moveTo phase).admission = c.admission := rfl

/-- The callback waits on, and is answered by, the run it was admitted under. -/
def Routed (c : Callback Input) : Prop :=
  match c.phase with
  | .idle => c.admission = none
  | .raised => True
  | .admitted => ∃ g b, c.admission = some (g, b)
  | .announcing k _ | .waiting k _ | .expiring k _ => ∃ g b, c.admission = some (g, b) ∧ b.run = k
  | .returned _ by' => by' = c.admission.map (·.2.run)

end Callback

namespace PermissionSystem

/-- No callback can be admitted under `generation` any more. -/
def Closed (s : PermissionSystem Input) (generation : Nat) : Prop :=
  generation ≤ s.bridge.generation ∧ (generation = s.bridge.generation → s.bridge.callback = none)

/-- No callback of `generation` is executing. -/
def Drained (s : PermissionSystem Input) (generation : Nat) : Prop :=
  ∀ c b, (s.calls c).admission = some (generation, b) → (s.calls c).executing = false

structure Inv (s : PermissionSystem Input) : Prop where
  routed : ∀ c, (s.calls c).Routed
  zero : s.bridge.inflightZero = decide (s.bridge.inflight = 0)
  inflight : {c | (s.calls c).executing = true}.encard = s.bridge.inflight
  admitted : ∀ c g b, (s.calls c).admission = some (g, b) → g ≤ s.bridge.generation
  draining : ∀ u g k, s.unbinds u = .draining g k → s.Closed g
  closed : ∀ u g, s.unbinds u = .returned g true → s.Closed g
  drained : ∀ u g, s.unbinds u = .returned g true → s.Drained g

private theorem Inv.init : Inv (init : PermissionSystem Input) where
  routed _ := rfl
  zero := rfl
  inflight := by simp [PermissionSystem.init, Callback.executing]
  admitted _ _ _ h := by cases h
  draining _ _ _ h := by cases h
  closed _ _ h := by cases h
  drained _ _ h := by cases h

variable {s : PermissionSystem Input}

private theorem Inv.setCoordinator (h : Inv s) (k : Nat)
    (x : PermissionCoordinator Input) : Inv (s.setCoordinator k x) :=
  ⟨h.routed, h.zero, h.inflight, h.admitted, h.draining, h.closed, h.drained⟩

private theorem Inv.cancelCoordinator (h : Inv s) (k : Option Nat) :
    Inv (s.cancelCoordinator k) := by
  cases k with
  | none => exact h
  | some k => exact h.setCoordinator k _

private theorem Inv.drained_of_zero (h : Inv s)
    (hz : s.bridge.inflightZero = true) (g : Nat) : s.Drained g := by
  have hn : s.bridge.inflight = 0 := by
    rw [h.zero] at hz
    exact of_decide_eq_true hz
  have hempty : {c | (s.calls c).executing = true} = ∅ := by
    rw [← Set.encard_eq_zero, h.inflight, hn]
    rfl
  intro c b _
  by_contra hc
  have hm : c ∈ {c | (s.calls c).executing = true} := by simpa using hc
  rw [hempty] at hm
  exact hm

private theorem setCall_admission (s : PermissionSystem Input) (c : Nat) (phase : CallbackPhase Input)
    (d : Nat) : ((s.setCall c ((s.calls c).moveTo phase)).calls d).admission = (s.calls d).admission := by
  by_cases hd : d = c
  · subst hd
    simp [PermissionSystem.setCall]
  · simp [PermissionSystem.setCall, hd]

variable {c : Nat} {askUser : ToolCall Input → PermissionResult Input → PermissionResult Input}

private theorem Inv.rephase (h : Inv s)
    {phase : CallbackPhase Input} (hold : (s.calls c).executing = true)
    (hnew : ((s.calls c).moveTo phase).executing = true)
    (hr : ((s.calls c).moveTo phase).Routed) :
    Inv (s.setCall c ((s.calls c).moveTo phase)) := by
  have hexec : ∀ d, ((s.setCall c ((s.calls c).moveTo phase)).calls d).executing = (s.calls d).executing := by
    intro d
    by_cases hd : d = c
    · subst hd
      simp [PermissionSystem.setCall, hnew, hold]
    · simp [PermissionSystem.setCall, hd]
  have hadm := s.setCall_admission c phase
  refine ⟨?_, h.zero, ?_, ?_, h.draining, h.closed, ?_⟩
  · intro d
    by_cases hd : d = c
    · subst hd
      simpa [PermissionSystem.setCall] using hr
    · simpa [PermissionSystem.setCall, hd] using h.routed d
  · simp only [hexec]
    exact h.inflight
  · intro d g b hd
    rw [hadm] at hd
    exact h.admitted d g b hd
  · intro u g hu d b hd
    rw [hadm] at hd
    rw [hexec]
    exact h.drained u g hu d b hd

private theorem Inv.finishCall (h : Inv s)
    {phase : CallbackPhase Input} (hold : (s.calls c).executing = true)
    (hnew : ((s.calls c).moveTo phase).executing = false)
    (hr : ((s.calls c).moveTo phase).Routed) :
    Inv (s.finishCall c phase) := by
  have hcalls : ∀ d, d ≠ c → (s.finishCall c phase).calls d = s.calls d := by
    intro d hd
    simp [PermissionSystem.finishCall, PermissionSystem.setCall, hd]
  have hself : (s.finishCall c phase).calls c = ((s.calls c).moveTo phase) := by
    simp [PermissionSystem.finishCall, PermissionSystem.setCall]
  have hadm : ∀ d, ((s.finishCall c phase).calls d).admission = (s.calls d).admission :=
    s.setCall_admission c phase
  have hset : {d | ((s.finishCall c phase).calls d).executing = true} =
      {d | (s.calls d).executing = true} \ {c} := by
    ext d
    by_cases hd : d = c
    · simp [hd, hself, hnew]
    · simp [hd, hcalls d hd]
  refine ⟨?_, ?_, ?_, ?_, h.draining, h.closed, ?_⟩
  · intro d
    by_cases hd : d = c
    · rw [hd, hself]
      exact hr
    · rw [hcalls d hd]
      exact h.routed d
  · show (if s.bridge.inflight - 1 = 0 then true else s.bridge.inflightZero) =
      decide (s.bridge.inflight - 1 = 0)
    by_cases hn : s.bridge.inflight - 1 = 0
    · rw [if_pos hn, decide_eq_true hn]
    · rw [if_neg hn, decide_eq_false hn, h.zero, decide_eq_false (by omega)]
  · have hmem : c ∈ {d | (s.calls d).executing = true} := hold
    rw [hset, Set.encard_sdiff_singleton_of_mem hmem, h.inflight]
    rfl
  · intro d g b hd
    rw [hadm] at hd
    exact h.admitted d g b hd
  · intro u g hu d b hd
    rw [hadm] at hd
    by_cases hdc : d = c
    · rw [hdc, hself]
      exact hnew
    · rw [hcalls d hdc]
      exact h.drained u g hu d b hd

private theorem Inv.admitCall (h : Inv s)
    (hidle : (s.calls c).phase = .idle) (tool : ToolCall Input) : Inv (s.admitCall c tool) := by
  have hnot : (s.calls c).executing = false := by rw [Callback.executing, hidle]
  unfold PermissionSystem.admitCall
  cases hcb : s.bridge.callback with
  | none =>
    dsimp only
    let call : Callback Input :=
      { phase := .returned (.deny "No active user run is available to approve this tool call")
          none
        tool := some tool }
    have hexec : ∀ d, ((s.setCall c call).calls d).executing = (s.calls d).executing := by
      intro d
      by_cases hd : d = c
      · subst hd
        simp only [PermissionSystem.setCall, Function.update_self, hnot]
        rfl
      · simp [PermissionSystem.setCall, hd]
    refine ⟨?_, h.zero, ?_, ?_, h.draining, h.closed, ?_⟩
    · intro d
      by_cases hd : d = c
      · subst hd
        simp [PermissionSystem.setCall, Callback.Routed]
      · simpa [PermissionSystem.setCall, hd] using h.routed d
    · rw [show {d | ((s.setCall c call).calls d).executing = true} =
        {d | (s.calls d).executing = true} by ext d; simp [hexec]]
      exact h.inflight
    · intro d g b had
      by_cases hd : d = c
      · subst hd
        simp [PermissionSystem.setCall] at had
      · refine h.admitted d g b ?_
        simpa [PermissionSystem.setCall, hd] using had
    · intro u g hu d b had
      by_cases hd : d = c
      · subst hd
        simp [PermissionSystem.setCall] at had
      · have had : (s.calls d).admission = some (g, b) := by
          simpa [PermissionSystem.setCall, hd] using had
        rw [← h.drained u g hu d b had]
        exact hexec d
  | some binding =>
    dsimp only
    let call : Callback Input :=
      { phase := .admitted, admission := some (s.bridge.generation, binding), tool := some tool }
    have hcalls : ∀ d, d ≠ c → (s.setCall c call).calls d = s.calls d := by
      intro d hd
      simp [PermissionSystem.setCall, hd]
    have hself : (s.setCall c call).calls c = call := by simp [PermissionSystem.setCall]
    have hset : {d | ((s.setCall c call).calls d).executing = true} =
        insert c {d | (s.calls d).executing = true} := by
      ext d
      by_cases hd : d = c
      · simp [hd, hself, call, Callback.executing]
      · simp [hd, hcalls d hd]
    refine ⟨?_, ?_, ?_, ?_, h.draining, h.closed, ?_⟩
    · intro d
      by_cases hd : d = c
      · rw [hd]
        show ((s.setCall c call).calls c).Routed
        rw [hself]
        exact ⟨_, _, rfl⟩
      · show ((s.setCall c call).calls d).Routed
        rw [hcalls d hd]
        exact h.routed d
    · show false = decide (s.bridge.inflight + 1 = 0)
      simp
    · show {d | ((s.setCall c call).calls d).executing = true}.encard = _
      rw [hset, Set.encard_insert_of_notMem (by simp [hnot]), h.inflight]
      rfl
    · intro d g b had
      have had : ((s.setCall c call).calls d).admission = some (g, b) := had
      by_cases hd : d = c
      · rw [hd, hself] at had
        obtain ⟨rfl, -⟩ := Prod.mk.inj (Option.some.inj had)
        exact le_refl _
      · rw [hcalls d hd] at had
        exact h.admitted d g b had
    · -- a closed generation is not the current one, so it is not the one admitted under
      intro u g hu d b had
      have had : ((s.setCall c call).calls d).admission = some (g, b) := had
      by_cases hd : d = c
      · rw [hd, hself] at had
        obtain ⟨rfl, -⟩ := Prod.mk.inj (Option.some.inj had)
        have := (h.closed u _ hu).2 rfl
        rw [hcb] at this
        cases this
      · rw [hcalls d hd] at had
        show ((s.setCall c call).calls d).executing = false
        rw [hcalls d hd]
        exact h.drained u g hu d b had

private theorem Inv.bind (h : Inv s) (binding : RunBinding) :
    Inv { s with bridge := s.bridge.bind binding } := by
  unfold PermissionBridge.bind
  cases hcb : s.bridge.callback with
  | some _ => exact h
  | none =>
    have hclosed : ∀ g, s.Closed g → g < s.bridge.generation + 1 :=
      fun g hg => Nat.lt_succ_of_le hg.1
    refine ⟨h.routed, h.zero, h.inflight, ?_, ?_, ?_, h.drained⟩
    · intro c g b had
      exact (h.admitted c g b had).trans (Nat.le_succ _)
    · intro u g k hu
      have := hclosed g (h.draining u g k hu)
      exact ⟨this.le, fun heq => absurd heq this.ne⟩
    · intro u g hu
      have := hclosed g (h.closed u g hu)
      exact ⟨this.le, fun heq => absurd heq this.ne⟩

private theorem Inv.setUnbind (h : Inv s) (u : Nat) {state : UnbindState}
    (hd : ∀ g k, state = .draining g k → s.Closed g)
    (hc : ∀ g, state = .returned g true → s.Closed g ∧ s.Drained g) : Inv (s.setUnbind u state) := by
  refine ⟨h.routed, h.zero, h.inflight, h.admitted, ?_, ?_, ?_⟩
  · intro v g k hv
    by_cases he : v = u
    · subst he
      exact hd g k (by simpa [PermissionSystem.setUnbind] using hv)
    · exact h.draining v g k (by simpa [PermissionSystem.setUnbind, he] using hv)
  · intro v g hv
    by_cases he : v = u
    · subst he
      exact (hc g (by simpa [PermissionSystem.setUnbind] using hv)).1
    · exact h.closed v g (by simpa [PermissionSystem.setUnbind, he] using hv)
  · intro v g hv
    by_cases he : v = u
    · subst he
      exact (hc g (by simpa [PermissionSystem.setUnbind] using hv)).2
    · exact h.drained v g (by simpa [PermissionSystem.setUnbind, he] using hv)

private theorem cancelCoordinator_bridge (s : PermissionSystem Input) (k : Option Nat) :
    (s.cancelCoordinator k).bridge = s.bridge := by
  cases k <;> rfl

private theorem cancelCoordinator_calls (s : PermissionSystem Input) (k : Option Nat) :
    (s.cancelCoordinator k).calls = s.calls := by
  cases k <;> rfl

private theorem drain_calls (s : PermissionSystem Input) (u g : Nat) (k : Option Nat) (timedOut : Bool) :
    (s.drain u g k timedOut).calls = s.calls := by
  unfold PermissionSystem.drain
  split
  · exact s.cancelCoordinator_calls k
  · exact s.cancelCoordinator_calls k

private theorem Inv.drain (h : Inv s) (u : Nat) {g : Nat} (hg : s.Closed g)
    (k : Option Nat) (timedOut : Bool) : Inv (s.drain u g k timedOut) := by
  have hcancel := h.cancelCoordinator k
  have hclosed : (s.cancelCoordinator k).Closed g := by
    rw [Closed, cancelCoordinator_bridge]
    exact hg
  unfold PermissionSystem.drain
  split
  · rename_i hz
    refine hcancel.setUnbind u nofun ?_
    intro g' he
    cases he
    refine ⟨hclosed, hcancel.drained_of_zero ?_ g⟩
    rw [cancelCoordinator_bridge]
    exact hz
  · cases timedOut with
    | true => exact hcancel.setUnbind u nofun nofun
    | false =>
      refine hcancel.setUnbind u ?_ nofun
      intro g' k' he
      cases he
      exact hclosed

private theorem Inv.unbound (h : Inv s) : Inv { s with bridge := s.bridge.unbound } :=
  ⟨h.routed, h.zero, h.inflight, h.admitted, fun u g k hu => ⟨(h.draining u g k hu).1, fun _ => rfl⟩,
    fun u g hu => ⟨(h.closed u g hu).1, fun _ => rfl⟩, h.drained⟩

private theorem Inv.consult {s' : PermissionSystem Input} (h : Inv s) {requestId : String}
    {g : Nat} {binding : RunBinding} {tool : ToolCall Input}
    (hphase : (s.calls c).phase = .admitted)
    (hadm : (s.calls c).admission = some (g, binding))
    (hs : s.consult c requestId binding tool = some s') : Inv s' := by
  have hexec : (s.calls c).executing = true := by rw [Callback.executing, hphase]
  unfold PermissionSystem.consult at hs
  split at hs
  · cases hs
    refine h.finishCall hexec rfl ?_
    show some binding.run = (s.calls c).admission.map _
    rw [hadm]
    rfl
  · split at hs
    · split at hs <;> cases hs
      exact (h.setCoordinator _ _).rephase hexec rfl ⟨g, binding, hadm, rfl⟩
    · cases hs
      exact h.finishCall hexec rfl trivial

private theorem Inv.step {s' : PermissionSystem Input} {e : PermissionEvent Input} (h : Inv s)
    (hs : s.step askUser e = some s') : Inv s' := by
  cases PermissionSystem.step_moves hs with
  | bind binding => exact h.bind binding
  | call c tool hidle => exact h.admitCall hidle tool
  | consult c requestId hp ha hc => exact h.consult hp ha hc
  | announced c hp =>
    have hr := h.routed c
    rw [Callback.Routed, hp] at hr
    exact h.rephase (by rw [Callback.executing, hp]) rfl hr
  | @resume c k _ _ hp | @expireSent c k _ hp =>
    have hr := h.routed c
    rw [Callback.Routed, hp] at hr
    obtain ⟨g, b, hadm, hrun⟩ := hr
    refine (h.setCoordinator k _).finishCall
      (by show (s.calls c).executing = true; rw [Callback.executing, hp]) rfl ?_
    show some k = (s.calls c).admission.map _
    rw [hadm, ← hrun]
    rfl
  | @expire c k _ hp =>
    have hr := h.routed c
    rw [Callback.Routed, hp] at hr
    exact (h.setCoordinator k _).rephase
      (by show (s.calls c).executing = true; rw [Callback.executing, hp]) rfl hr
  | failEarly c hx => exact h.finishCall hx rfl trivial
  | fail c k _ hx => exact (h.setCoordinator k _).finishCall hx rfl trivial
  | resolve k | cancelAll k => exact h.setCoordinator k _
  | unresolved => exact h
  | stale u | unbindCancel u => exact h.setUnbind u (by rintro _ _ ⟨⟩) (by rintro _ ⟨⟩)
  | unbind u timedOut => exact h.unbound.drain u ⟨le_rfl, fun _ => rfl⟩ _ _
  | @unbindWake u timedOut g k hu => exact h.drain u (h.draining u g k hu) k timedOut

private theorem Inv.step_admission
    {s' : PermissionSystem Input} {e : PermissionEvent Input} (h : Inv s)
    (hs : s.step askUser e = some s') {a : Nat × RunBinding}
    (ha : (s.calls c).admission = some a) : (s'.calls c).admission = some a := by
  rw [← ha]
  cases PermissionSystem.step_moves hs with
  | call d tool hidle =>
    have hcd : c ≠ d := by
      rintro rfl
      have hr := h.routed c
      rw [Callback.Routed, hidle, ha] at hr
      cases hr
    unfold PermissionSystem.admitCall
    split <;> simp [PermissionSystem.setCall, hcd]
  | consult d _ _ _ hs =>
    unfold PermissionSystem.consult at hs
    split at hs
    · cases hs
      exact s.setCall_admission d _ c
    · split at hs
      · split at hs <;> cases hs
        exact s.setCall_admission d _ c
      · cases hs
        exact s.setCall_admission d _ c
  | announced d | resume d | expire d | expireSent d | failEarly d | fail d =>
    exact s.setCall_admission d _ c
  | unbind | unbindWake => rw [drain_calls]
  | bind | resolve | unresolved | cancelAll | stale | unbindCancel => rfl

/-- Isolation between the runs that share the bridge, in one state and over its next step. -/
structure Isolated (askUser : ToolCall Input → PermissionResult Input → PermissionResult Input)
    (s : PermissionSystem Input) : Prop where
  /-- While no run is bound a callback is denied and reaches no coordinator. -/
  denies : s.bridge.callback = none → ∀ c tool s', s.step askUser (.call c tool) = some s' →
    (s'.calls c).phase = .returned (.deny "No active user run is available to approve this tool call") none ∧
      s'.bridge = s.bridge ∧ s'.coordinators = s.coordinators
  /-- A callback is admitted under the run bound at that moment, for good. -/
  admits : ∀ binding, s.bridge.callback = some binding → ∀ c tool s',
    s.step askUser (.call c tool) = some s' → (s'.calls c).admission = some (s.bridge.generation, binding)
  keeps : ∀ e s', s.step askUser e = some s' → ∀ c a, (s.calls c).admission = some a →
    (s'.calls c).admission = some a
  /-- It is answered by that run. -/
  answers : ∀ c result answeredBy, (s.calls c).phase = .returned result answeredBy →
    answeredBy = (s.calls c).admission.map (·.2.run)
  stale : ∀ u g timedOut s', g ≠ s.bridge.generation →
    s.step askUser (.unbind u g timedOut) = some s' → s' = s.setUnbind u (.returned g false)
  drains : ∀ u g, s.unbinds u = .returned g true → s.Drained g

private theorem Inv.isolated (h : Inv s)
    (askUser : ToolCall Input → PermissionResult Input → PermissionResult Input) :
    Isolated askUser s where
  denies := by
    intro hcb c tool s' hs
    simp only [PermissionSystem.step] at hs
    split at hs <;> cases hs
    simp [PermissionSystem.admitCall, hcb, PermissionSystem.setCall]
  admits := by
    intro binding hcb c tool s' hs
    simp only [PermissionSystem.step] at hs
    split at hs <;> cases hs
    simp [PermissionSystem.admitCall, hcb, PermissionSystem.setCall]
  keeps := fun e s' hs c a ha => h.step_admission hs ha
  answers := by
    intro c result answeredBy hphase
    have hr := h.routed c
    rw [Callback.Routed, hphase] at hr
    exact hr
  stale := by
    intro u g timedOut s' hg hs
    simp only [PermissionSystem.step, if_pos hg] at hs
    split at hs <;> cases hs
    rfl
  drains := h.drained

/-- Every reachable state of the bridge isolates the runs that use it. -/
theorem isolated_of_run (askUser : ToolCall Input → PermissionResult Input → PermissionResult Input)
    (es : List (PermissionEvent Input)) (s : PermissionSystem Input)
    (hr : run (step askUser) init es = some s) : Isolated askUser s :=
  (run_invariant_always (fun _ _ _ hi hs => Inv.step hi hs) Inv.init hr).isolated askUser

/-- Two runs use the bridge one after the other; a callback of the first is still waiting when its
run unbinds, and is answered by the cancellation. -/
def handOver : List (PermissionEvent Unit) :=
  [.bind ⟨1, .default, true, true⟩, .call 0 ⟨"Bash", (), ""⟩, .consult 0 "q1", .announced 0,
    .unbind 0 1 false, .bind ⟨2, .default, true, true⟩, .resume 0, .unbindWake 0 false]

theorem isolated_handOver : ∃ s, run (step fun _ r => r) init handOver = some s ∧
    s.bridge.generation = 2 ∧ s.unbinds 0 = .returned 1 true ∧
    Isolated (fun _ r => r) s := by
  obtain ⟨s, hr, ht⟩ := exists_run_of_map (step fun _ r => r) (init : PermissionSystem Unit)
    handOver (fun s => s.bridge.generation = 2 ∧ s.unbinds 0 = .returned 1 true) (by decide)
  obtain ⟨hg, hu⟩ := of_decide_eq_true ht
  exact ⟨s, hr, hg, hu, isolated_of_run _ handOver s hr⟩

end PermissionSystem

end PrivaCloud.AgentRunner
