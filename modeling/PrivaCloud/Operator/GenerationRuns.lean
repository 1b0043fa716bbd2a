import PrivaCloud.Operator.Generations

/-!
# Runs of handlers on one allocation

Every handler keeps the Deployments matched while it runs alone, so every run does whose writes are
not disturbed.
-/

namespace PrivaCloud.Operator

open Framework Kube Reconcile Deployments

section Handlers

variable {allocations : Set Allocation} {α β : Type}

/-- From every matched state the script leads to matched states. -/
def Keeps (allocations : Set Allocation) (x : OperatorScript α) : Prop :=
  ∀ s, s.Matched allocations → SafeIn allocations (fun _ s' => s'.Matched allocations) x s

private theorem Keeps.pure (a : α) : Keeps allocations (Pure.pure a : OperatorScript α) := fun _ h => h

private theorem Keeps.bind {x : OperatorScript α} {f : α → OperatorScript β} (hx : Keeps allocations x)
    (hf : ∀ a, Keeps allocations (f a)) : Keeps allocations (x >>= f) := by
  intro s h
  apply Script.Safe.bind
  exact (hx s h).mono fun a s' h' => hf a s' h'

private theorem Keeps.quiet {op : OperatorOp} (hop : isWrite op = false) :
    Keeps allocations (Script.perform op : OperatorScript op.Reply) :=
  fun _ h => safe_quiet h hop fun _ => h

private theorem Keeps.getReplicas (c : Component) : Keeps allocations (getReplicas c) := by
  refine Keeps.bind (Keeps.quiet rfl) fun d => ?_
  cases d <;> exact Keeps.pure _

private theorem Keeps.appliedAllocationHash : Keeps allocations appliedAllocationHash :=
  Keeps.bind (Keeps.quiet rfl) fun _ => Keeps.pure _

private theorem Keeps.desired (a : Option Allocation) : Keeps allocations (desired a) := by
  cases a with
  | some a => exact Keeps.pure a
  | none => exact fun _ h => safe_quiet h rfl fun never => nomatch never

private theorem Keeps.scaleRunner (replicas : Nat) : Keeps allocations (Kube.scale .runner replicas) :=
  fun _ h => safe_scale h .runner replicas h.scale_runner fun _ h' => h'

private theorem Keeps.scaleZero (c : Component) : Keeps allocations (Kube.scale c 0) :=
  fun _ h => safe_scaleZero h c fun _ h' => h'

private theorem Keeps.awaitPod (c : Component) : Keeps allocations (awaitPod c) :=
  Keeps.bind (Keeps.quiet rfl) fun _ => Keeps.pure _

private theorem Keeps.scaleDown (c : Component) (replicas : Int) : Keeps allocations (scaleDown c replicas) := by
  unfold Reconcile.scaleDown
  split
  · exact Keeps.scaleZero c
  · exact Keeps.pure _

private theorem Keeps.takeDown (c : Component) (replicas : Int) : Keeps allocations (takeDown c replicas) := by
  unfold Reconcile.takeDown
  split
  · exact Keeps.bind (Keeps.quiet rfl) fun _ => Keeps.scaleZero c
  · exact Keeps.pure _

private theorem Keeps.quiesceIfInactive (args : HandlerArgs) : Keeps allocations (quiesceIfInactive args) := by
  unfold Reconcile.quiesceIfInactive
  split
  · exact Keeps.pure _
  · refine Keeps.bind (Keeps.getReplicas _) fun _ => ?_
    refine Keeps.bind (Keeps.getReplicas _) fun _ => ?_
    refine Keeps.bind (Keeps.takeDown _ _) fun _ => ?_
    exact Keeps.bind (Keeps.takeDown _ _) fun _ => Keeps.pure _

private theorem Keeps.admitted (args : HandlerArgs) {body : OperatorScript Unit} (h : Keeps allocations body) :
    Keeps allocations (admitted args body) := by
  refine Keeps.bind (Keeps.quiet rfl) fun started => ?_
  split
  · exact Keeps.pure _
  · refine Keeps.bind (Keeps.quiesceIfInactive args) fun quiesced => ?_
    split
    · exact Keeps.pure _
    · split
      · exact h
      · exact Keeps.pure _

private theorem Keeps.withDefaults (args : HandlerArgs) {body : RunnerDefaults → OperatorScript Unit}
    (h : ∀ defaults ∈ args.defaults, Keeps allocations (body defaults)) :
    Keeps allocations (withDefaults args body) := by
  unfold Reconcile.withDefaults
  split
  · exact Keeps.pure _
  · rename_i defaults heq
    exact h defaults heq

private theorem Keeps.scaleUpRunner {after : OperatorScript Unit} (h : Keeps allocations after) :
    Keeps allocations (scaleUpRunner after) := by
  refine Keeps.bind (Keeps.getReplicas _) fun replicas => ?_
  split
  · exact Keeps.pure _
  · exact Keeps.bind (Keeps.scaleRunner 1) fun _ => h

private theorem Keeps.ensureTerminalObjects (args : HandlerArgs) (defaults : RunnerDefaults) :
    Keeps allocations (ensureTerminalObjects args defaults) :=
  fun _ h => safe_ensureTerminalObjects h args defaults fun _ h' _ _ _ => h'

variable (hinj : Set.InjOn Allocation.hash allocations) {args : HandlerArgs} {defaults : RunnerDefaults}

section Known

variable (hknown : ∀ a ∈ resolveAllocation args.spec args.settings defaults, a ∈ allocations)
include hinj hknown

private theorem Keeps.ensureRuntimeObjects : Keeps allocations (ensureRuntimeObjects args defaults) :=
  fun _ h => safe_ensureRuntimeObjects hinj h args defaults hknown fun _ h' _ _ => h'

private theorem Keeps.restoreRunner (a : Allocation) : Keeps allocations (restoreRunner args defaults a) := by
  refine Keeps.bind (Keeps.quiet rfl) fun started => ?_
  split
  · exact Keeps.pure _
  · refine Keeps.bind Keeps.appliedAllocationHash fun applied => ?_
    split
    · refine Keeps.bind (Keeps.ensureRuntimeObjects hinj hknown) fun _ => ?_
      split
      · exact Keeps.scaleUpRunner (Keeps.pure _)
      · exact Keeps.pure _
    · split
      · exact Keeps.scaleUpRunner (Keeps.pure _)
      · exact Keeps.pure _

end Known

private theorem Keeps.sweepRunner (args : HandlerArgs) (defaults : RunnerDefaults) (a : Allocation) :
    Keeps allocations (sweepRunner args defaults a) := by
  have hidle (idle : Prop) [Decidable idle] :
      Keeps allocations (if idle then Reconcile.takeDown .runner 1 else Pure.pure ()) := by
    split
    · exact Keeps.takeDown _ _
    · exact Keeps.pure _
  refine Keeps.bind (Keeps.quiet rfl) fun ip => ?_
  split
  · exact Keeps.pure _
  · split
    · exact Keeps.pure _
    · refine Keeps.bind Keeps.appliedAllocationHash fun applied => ?_
      split
      · split
        · refine Keeps.bind (Keeps.quiet rfl) fun health => ?_
          split
          · exact Keeps.pure _
          · exact hidle _
        · exact Keeps.pure _
      · split
        · exact Keeps.pure _
        · exact Keeps.pure _
        · refine Keeps.bind (Keeps.quiet rfl) fun now => ?_
          split
          · exact Keeps.pure _
          · refine Keeps.bind (Keeps.quiet rfl) fun health => ?_
            split
            · exact Keeps.pure _
            · exact hidle _

private theorem Keeps.sweepTerminal (args : HandlerArgs) (defaults : RunnerDefaults) :
    Keeps allocations (sweepTerminal args defaults) := by
  refine Keeps.bind (Keeps.quiet rfl) fun ip => ?_
  split
  · exact Keeps.pure _
  · refine Keeps.bind (Keeps.quiet rfl) fun health => ?_
    split
    · exact Keeps.pure _
    · refine Keeps.bind (Keeps.quiet rfl) fun now => ?_
      split
      · split
        · split
          · exact Keeps.scaleZero _
          · exact Keeps.quiet rfl
        · refine Keeps.bind (Keeps.quiet rfl) fun drained => ?_
          split
          · exact Keeps.bind (Keeps.quiet rfl) fun _ => Keeps.scaleZero _
          · exact Keeps.pure _
      · exact Keeps.pure _

section Requests

variable (hargs : args.Within allocations)
include hinj hargs

private theorem Keeps.ensure : Keeps allocations (ensure args) := by
  refine Keeps.admitted args (Keeps.withDefaults args fun defaults hdefaults => ?_)
  refine Keeps.bind (Keeps.desired _) fun _ => ?_
  refine Keeps.bind (Keeps.quiet rfl) fun _ => ?_
  refine Keeps.bind (Keeps.ensureRuntimeObjects hinj (hargs defaults hdefaults)) fun _ => ?_
  refine Keeps.bind ?_ fun _ => ?_
  · unfold Reconcile.ensureTerminal
    split
    · refine Keeps.bind (Keeps.ensureTerminalObjects args defaults) fun _ => ?_
      exact Keeps.bind (Keeps.getReplicas _) fun _ => Keeps.pure _
    · exact Keeps.bind (Keeps.getReplicas _) fun _ => Keeps.scaleDown _ _
  · refine Keeps.bind (Keeps.getReplicas _) fun replicas => ?_
    split
    · split
      · exact Keeps.pure _
      · split
        · exact Keeps.bind (Keeps.scaleRunner 1) fun _ => Keeps.awaitPod _
        · exact Keeps.awaitPod _
    · exact Keeps.pure _

private theorem Keeps.onWake : Keeps allocations (onWake args) := by
  refine Keeps.admitted args (Keeps.bind (Keeps.getReplicas _) fun replicas => ?_)
  split
  · exact Keeps.awaitPod _
  · refine Keeps.withDefaults args fun defaults hdefaults => ?_
    refine Keeps.bind (Keeps.ensureRuntimeObjects hinj (hargs defaults hdefaults)) fun _ => ?_
    exact Keeps.scaleUpRunner (Keeps.awaitPod _)

private theorem Keeps.reconcileRuntime : Keeps allocations (reconcileRuntime args) := by
  refine Keeps.admitted args (Keeps.bind (Keeps.getReplicas _) fun replicas => ?_)
  refine Keeps.withDefaults args fun defaults hdefaults => ?_
  refine Keeps.bind (Keeps.desired _) fun a => ?_
  refine Keeps.bind (Keeps.quiet rfl) fun _ => ?_
  refine Keeps.bind ?_ fun _ => ?_
  · refine Keeps.bind (Keeps.quiet rfl) fun now => ?_
    split
    · exact Keeps.bind (Keeps.quiet rfl) fun _ => Keeps.pure _
    · exact Keeps.pure _
  · split
    · exact Keeps.restoreRunner hinj (hargs defaults hdefaults) a
    · split
      · exact Keeps.sweepRunner args defaults a
      · exact Keeps.pure _

end Requests

private theorem Keeps.reconcileTerminal (args : HandlerArgs) : Keeps allocations (reconcileTerminal args) := by
  refine Keeps.admitted args (Keeps.withDefaults args fun defaults _ => ?_)
  refine Keeps.bind (Keeps.desired _) fun a => ?_
  refine Keeps.bind (Keeps.getReplicas _) fun replicas => ?_
  split
  · exact Keeps.takeDown _ _
  · refine Keeps.bind (Keeps.getReplicas _) fun runnerReplicas => ?_
    refine Keeps.bind (Keeps.quiet rfl) fun _ => ?_
    refine Keeps.bind Keeps.appliedAllocationHash fun applied => ?_
    split
    · exact Keeps.pure _
    · split
      · refine Keeps.bind (Keeps.quiet rfl) fun started => ?_
        split
        · exact Keeps.pure _
        · exact Keeps.ensureTerminalObjects args defaults
      · split
        · exact Keeps.sweepTerminal args defaults
        · exact Keeps.pure _

private theorem Keeps.purge (args : HandlerArgs) : Keeps allocations (purge args) := by
  refine Keeps.bind (Keeps.quiet rfl) fun _ => ?_
  refine Keeps.bind (Keeps.getReplicas _) fun _ => ?_
  refine Keeps.bind (Keeps.scaleDown _ _) fun _ => ?_
  refine Keeps.bind (Keeps.getReplicas _) fun _ => ?_
  refine Keeps.bind (Keeps.scaleDown _ _) fun _ => ?_
  refine Keeps.bind (Keeps.quiet rfl) fun _ => ?_
  exact Keeps.bind (Keeps.quiet rfl) fun _ => Keeps.pure _

/-- What `on_terminal_wake` knows when it comes to the Terminal: beside a Terminal that sleeps, the
Runner runs on the hash that was read, or sleeps on the allocation, or is not there. -/
structure Converged (a : Allocation) (runnerReplicas terminalReplicas : Int) (applied : Option String)
    (s : Deployments) : Prop where
  terminal : replicasOf s.terminal = terminalReplicas
  running : terminalReplicas ≤ 0 → 0 < runnerReplicas → ∃ d, s.runner = some d ∧ 0 < d.replicas ∧
    applied = some d.template.generation
  sleeping : terminalReplicas ≤ 0 → runnerReplicas = 0 → ∀ d ∈ s.runner, d.template = a.template .runner
  absent : runnerReplicas < 0 → s.runner = none

private theorem live_iff (s : Deployments) : s.Live .terminal ↔ 0 < replicasOf s.terminal := by
  unfold Deployments.Live Deployments.get
  cases s.terminal with
  | none => simp [replicasOf]
  | some t => simp [replicasOf]

section Wake

include hinj

private theorem safe_wakeTerminal {s : Deployments} (h : s.Matched allocations) {a : Allocation} (ha : a ∈ allocations)
    (hresolve : resolveAllocation args.spec args.settings defaults = some a)
    (henabled : 0 < resolveTerminalPercent defaults) (hpercent : 0 < a.percent)
    {runnerReplicas terminalReplicas : Int} {applied : Option String}
    (hconverged : Converged a runnerReplicas terminalReplicas applied s) :
    SafeIn allocations (fun _ s' => s'.Matched allocations)
      (wakeTerminal args defaults a runnerReplicas terminalReplicas applied) s := by
  unfold wakeTerminal
  split
  · exact h
  · rename_i hmay
    split
    · exact Keeps.awaitPod _ s h
    · apply Script.Safe.bind
      refine safe_ensureTerminalObjects h args defaults ?_
      intro s' h' hrunner hlive hasleep
      apply Script.Safe.bind
      refine safe_scale h' .terminal _ (fun _ => h'.scale_terminal ?_) fun s'' h'' => Keeps.awaitPod _ s'' h''
      intro _ t ht
      by_cases hruns : s.Live .terminal
      · -- a Terminal that runs has not been touched
        obtain ⟨t', ht', hpos⟩ := hruns
        have hsame := hlive ⟨t', ht', hpos⟩
        rw [hsame] at ht
        rw [Option.mem_unique ht ht', hrunner]
        exact h.terminal t' ht' hpos
      · refine ⟨a, ha, hpercent, hasleep hruns henabled a hresolve t ht, ?_⟩
        intro d hd
        rw [hrunner] at hd
        have hzero : terminalReplicas ≤ 0 := by
          rw [live_iff, hconverged.terminal] at hruns
          omega
        rcases lt_trichotomy runnerReplicas 0 with hneg | hnull | hpos
        · rw [hconverged.absent hneg] at hd
          cases hd
        · exact hconverged.sleeping hzero hnull d hd
        · obtain ⟨d', hd', hpos', happlied⟩ := hconverged.running hzero hpos
          obtain rfl := Option.mem_unique hd hd'
          obtain ⟨b, hb, htemplate⟩ := h.runner d hd hpos'
          have hhash : some b.hash = some a.hash := by
            by_contra hne
            apply hmay
            refine ⟨hzero, hpos, ?_⟩
            rw [happlied, htemplate, Allocation.generation_template]
            exact hne
          rw [htemplate, hinj hb ha (Option.some.inj hhash)]

private theorem Keeps.onTerminalWake (hargs : args.Within allocations) : Keeps allocations (onTerminalWake args) := by
  refine Keeps.admitted args (Keeps.withDefaults args fun defaults hdefaults => ?_)
  intro s h
  refine safe_desired h _ fun a hresolve => ?_
  have ha := hargs defaults hdefaults a hresolve
  split
  · exact h
  · rename_i henabled
    have hpercent : 0 < a.percent := by
      have heq : a.percent = resolveTerminalPercent defaults := by
        unfold resolveAllocation at hresolve
        simp only at hresolve
        split at hresolve <;> cases hresolve
        rfl
      omega
    refine safe_getReplicas h .runner ?_
    refine safe_getReplicas h .terminal ?_
    refine safe_appliedAllocationHash h ?_
    apply Script.Safe.bind
    -- from a state in which the Runner is converged
    have hwake (s' : Deployments) (h' : s'.Matched allocations) (applied : Option String)
        (hconverged : Converged a (replicasOf s.runner) (replicasOf s.terminal) applied s') :
        SafeIn allocations (fun _ s' => s'.Matched allocations)
          (if 0 < replicasOf (s.get .runner) then do
            let _ ← readDeployment .runner
            wakeTerminal args defaults a (replicasOf (s.get .runner)) (replicasOf (s.get .terminal)) applied
          else
            wakeTerminal args defaults a (replicasOf (s.get .runner)) (replicasOf (s.get .terminal)) applied)
          s' := by
      have hgo := safe_wakeTerminal hinj h' ha hresolve (by omega) hpercent hconverged
      split
      · exact safe_read h' .runner hgo
      · exact hgo
    unfold convergeRunner
    by_cases hboth : replicasOf (s.get .runner) = 0 ∧ replicasOf (s.get .terminal) ≤ 0
    · rw [if_pos hboth]
      obtain ⟨hzero, hasleep⟩ := hboth
      have hzero' : replicasOf s.runner = 0 := hzero
      have hnot : ¬ s.Live .terminal := by
        rw [live_iff]
        have : replicasOf s.terminal ≤ 0 := hasleep
        omega
      apply Script.Safe.bind
      refine safe_ensureRuntimeObjects hinj h args defaults (hargs defaults hdefaults) ?_
      intro s' h' hterminal hrendered
      refine safe_read h' .runner ?_
      refine hwake s' h' _ ⟨by rw [hterminal], ?_, ?_, ?_⟩
      · intro _ hpos
        omega
      · intro _ _ d hd
        cases hs : s.runner with
        | none =>
          rw [hs] at hzero'
          cases hzero'
        | some d' =>
          rw [hs] at hzero'
          have hd' : d'.replicas = 0 := by
            simp only [replicasOf] at hzero'
            omega
          exact hrendered hnot d' hs hd' a hresolve d hd
      · intro hneg
        omega
    · rw [if_neg hboth]
      refine hwake s h _ ⟨rfl, ?_, ?_, ?_⟩
      · intro _ hpos
        cases hs : s.runner with
        | none =>
          rw [hs] at hpos
          exact absurd hpos (by decide)
        | some d =>
          rw [hs] at hpos
          refine ⟨d, rfl, ?_, rfl⟩
          simp only [replicasOf] at hpos
          omega
      · intro hasleep hzero
        exact absurd ⟨hzero, hasleep⟩ hboth
      · intro hneg
        cases hs : s.runner with
        | none => rfl
        | some d =>
          rw [hs] at hneg
          simp only [replicasOf] at hneg
          omega

end Wake

private theorem exec_patchResources {s : Deployments} {c : Component} {resources : Share} {d : Deployment} {o : Oracle}
    (hraised : o.raised = false) (hget : s.get c = some d) :
    s.exec (.patchResources c resources) o =
      (s.put c { d.template with resources := resources } d.replicas, some ()) := by
  simp [Deployments.exec, Deployments.patchResources, hraised, hget]
  rfl

private theorem exists_of_replicasOf_zero {d : Option Deployment} (h : replicasOf d = 0) :
    ∃ d', d = some d' ∧ d'.replicas = 0 := by
  cases d with
  | none => cases h
  | some d' =>
    simp only [replicasOf] at h
    exact ⟨d', rfl, by omega⟩

private theorem Keeps.onResourcesChange (args : HandlerArgs) : Keeps allocations (onResourcesChange args) := by
  intro s h
  refine safe_getReplicas h .runner ?_
  refine safe_getReplicas h .terminal ?_
  by_cases hdeferred : replicasOf (s.get .runner) ≠ 0 ∨ 0 < replicasOf (s.get .terminal)
  · rw [if_pos hdeferred]
    exact h
  · rw [if_neg hdeferred]
    obtain ⟨hzero, hasleep⟩ := not_or.mp hdeferred
    obtain ⟨d, hd, hreplicas⟩ := exists_of_replicasOf_zero (not_not.mp hzero)
    unfold Reconcile.withDefaults
    split
    · exact h
    · refine safe_desired h _ fun a _ => ?_
      refine safe_write h ?_
      intro _ o hraised
      rw [exec_patchResources hraised hd, hreplicas]
      -- the Terminal sleeps, so the Runner may have any resources
      have hmatched : (s.put .runner { d.template with resources := a.runner } 0).Matched allocations := by
        refine .put_runner _ ?_
        intro t ht hlive
        exact absurd ((live_iff s).mp ⟨t, ht, hlive⟩) hasleep
      refine ⟨hmatched, ?_⟩
      intro _ _
      refine safe_getReplicas hmatched .terminal ?_
      split
      · rename_i hsleeps
        obtain ⟨t, ht, hnone⟩ := exists_of_replicasOf_zero hsleeps
        refine safe_write hmatched ?_
        intro _ o hraised
        rw [exec_patchResources hraised ht, hnone]
        exact ⟨hmatched.put_terminal _, fun _ _ => hmatched.put_terminal _⟩
      · exact hmatched

include hinj in
theorem Keeps.script (request : HandlerRequest) (hargs : request.args.Within allocations) :
    Keeps allocations request.script := by
  obtain ⟨name, args⟩ := request
  cases name with
  | ensure => exact Keeps.ensure hinj hargs
  | purge => exact Keeps.purge args
  | onWake => exact Keeps.onWake hinj hargs
  | onTerminalWake => exact Keeps.onTerminalWake hinj hargs
  | reconcileRuntime => exact Keeps.reconcileRuntime hinj hargs
  | reconcileTerminal => exact Keeps.reconcileTerminal args
  | onResourcesChange => exact Keeps.onResourcesChange args

end Handlers

abbrev DeploymentSystem : Type :=
  Processes (Script.Stamped Deployments) (Script.Task OperatorOp OperatorOp.Reply)
abbrev DeploymentEvent : Type := ProcessEvent HandlerRequest Oracle Empty

def deploymentProgram :
    Program (Script.Stamped Deployments) (Script.Task OperatorOp OperatorOp.Reply) HandlerRequest Oracle Empty :=
  Script.program Deployments.exec Deployments.isWrite HandlerRequest.script

/-- Whenever both Deployments run they run on one allocation, along every run in which no handler
writes a Deployment after another handler has written one behind its back, and none scales a Runner
up whose resources are not those of its hash. -/
theorem oneAllocation_of_undisturbed (allocations : Set Allocation)
    (hinj : Set.InjOn Allocation.hash allocations) {s s' : DeploymentSystem} {events : List DeploymentEvent}
    (hidle : s.procs = []) (hinit : s.shared.state.Matched allocations)
    (hwithin : ∀ request, .spawn request ∈ events → request.args.Within allocations)
    (hm : RunMeets deploymentProgram.step
      (Script.Undisturbed Deployments.isWrite (Deployments.Rendered allocations)) s events)
    (hrun : run deploymentProgram.step s events = some s') : s'.shared.state.OneAllocation := by
  have hmatched : s'.shared.state.Matched allocations := by
    refine Script.invariant_of_undisturbed Deployments.exec_read ?_ hidle hinit hwithin hm hrun
    intro request hargs state hstate
    exact (Keeps.script hinj request hargs state hstate).mono fun _ _ _ => trivial
  exact hmatched.oneAllocation

/-- A tenant with a Terminal of a fifth of its resources. -/
def smallTenant : HandlerArgs where
  spec := { accountId := "a", username := "u" }
  uid := "1"
  defaults := some { cpuM := 1000, memoryMb := 1024, storageGb := 1, terminalResourcePercent := 20 }

def smallAllocation : Allocation where
  username := "u"
  image := "runner"
  pullPolicy := "IfNotPresent"
  total := ⟨1000, 1024⟩
  percent := 20
  uid := 10001
  gid := 10001
  splittable := by decide

def emptyDeployments : DeploymentSystem := ⟨⟨{}, 0⟩, []⟩

def wokenRun : List DeploymentEvent :=
  .spawn ⟨.onWake, smallTenant⟩ :: List.replicate 10 (.advance 0 {}) ++
    .spawn ⟨.onTerminalWake, smallTenant⟩ :: List.replicate 11 (.advance 1 {})

/-- The condition on the resources, for a single allocation. -/
def RenderedFrom (a : Allocation) (s : Deployments) : OperatorOp → Prop
  | .scale .runner replicas => 0 < replicas → ∀ d ∈ s.runner, d.template = a.template .runner
  | _ => True

instance (a : Allocation) (s : Deployments) (op : OperatorOp) : Decidable (RenderedFrom a s op) := by
  apply @OperatorOp.casesOn _ op <;> intros <;> dsimp only [RenderedFrom] <;> try infer_instance
  rename_i c _
  apply @Component.casesOn _ c <;> dsimp only <;> infer_instance

private theorem rendered_of_renderedFrom {a : Allocation} {s : Deployments} {op : OperatorOp}
    (h : RenderedFrom a s op) : Deployments.Rendered {a} s op := by
  unfold Deployments.Rendered
  split
  · intro hpos d hd
    exact ⟨a, rfl, h hpos d hd⟩
  · trivial

theorem oneAllocation_wokenRun : ∃ s', run deploymentProgram.step emptyDeployments wokenRun = some s' ∧
    (s'.shared.state.runner.map (·.replicas), s'.shared.state.terminal.map (·.replicas)) = (some 1, some 1) ∧
    s'.shared.state.OneAllocation := by
  obtain ⟨hfrom, hfinal⟩ : RunMeets deploymentProgram.step
        (Script.Undisturbed Deployments.isWrite (RenderedFrom smallAllocation)) emptyDeployments wokenRun ∧
      (run deploymentProgram.step emptyDeployments wokenRun).map (fun s =>
        decide ((s.shared.state.runner.map (·.replicas), s.shared.state.terminal.map (·.replicas)) =
          (some 1, some 1))) = some true := by
    decide +kernel
  have hm : RunMeets deploymentProgram.step
      (Script.Undisturbed Deployments.isWrite (Deployments.Rendered {smallAllocation})) emptyDeployments
      wokenRun :=
    hfrom.mono fun _ _ h => h.mono fun _ _ => rendered_of_renderedFrom
  obtain ⟨s', hrun, htest⟩ := exists_run_of_map deploymentProgram.step emptyDeployments wokenRun _ hfinal
  refine ⟨s', hrun, of_decide_eq_true htest, ?_⟩
  have hinj : Set.InjOn Allocation.hash {smallAllocation} := Set.injOn_singleton _ _
  refine oneAllocation_of_undisturbed {smallAllocation} hinj rfl ?_ ?_ hm hrun
  · exact ⟨fun d hd => (nomatch hd), fun t ht => (nomatch ht)⟩
  · have hwithin : smallTenant.Within {smallAllocation} := by
      rintro defaults ⟨⟩ a ha
      exact (Option.some.inj ha).symm
    intro request hrequest
    have hargs : request.args = smallTenant := by
      simp only [wokenRun, List.mem_append, List.mem_cons, List.mem_replicate] at hrequest
      rcases hrequest with (h | ⟨-, h⟩) | h | ⟨-, h⟩ <;> cases h <;> rfl
    rw [hargs]
    exact hwithin

def largeTenant : HandlerArgs :=
  { smallTenant with spec := { accountId := "a", username := "u", memoryMb := some 2048 } }

def largeAllocation : Allocation :=
  { smallAllocation with total := ⟨1000, 2048⟩, splittable := by decide }

/-- The Runner is created on the old allocation by a handler that has looked for a Terminal before the
one of the new allocation was there. -/
def mixedRun : List DeploymentEvent :=
  [.spawn ⟨.onWake, smallTenant⟩, .spawn ⟨.onTerminalWake, largeTenant⟩] ++
    List.replicate 6 (.advance 0 {}) ++ List.replicate 10 (.advance 1 {}) ++ List.replicate 4 (.advance 0 {})

theorem mixedRun_not_oneAllocation : ∃ s', run deploymentProgram.step emptyDeployments mixedRun = some s' ∧
    ¬ s'.shared.state.OneAllocation := by
  have hfinal : (run deploymentProgram.step emptyDeployments mixedRun).map (fun s => s.shared.state) = some
      { runner := some ⟨smallAllocation.template .runner, 1, 4⟩
        terminal := some ⟨largeAllocation.template .terminal, 1, 2⟩
        version := 4 } := rfl
  obtain ⟨s', hrun, hstate⟩ := Option.map_eq_some_iff.mp hfinal
  refine ⟨s', hrun, ?_⟩
  rw [hstate]
  rintro ⟨hone⟩
  obtain ⟨a, hrunner, hterminal, -⟩ := hone _ rfl _ rfl (by decide) (by decide)
  have hsame : smallAllocation.hash = largeAllocation.hash :=
    Option.some.inj (hrunner.trans hterminal.symm)
  revert hsame
  decide +kernel

end PrivaCloud.Operator
