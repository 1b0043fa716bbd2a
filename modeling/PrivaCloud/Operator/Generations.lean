import PrivaCloud.Operator.Cluster

/-!
# One allocation for both Deployments

The Runner and the Terminal stay on one allocation whenever both run, or the Terminal runs beside a Runner that sleeps,
in every run of handlers whose writes to the Deployments are not disturbed by one another.
-/

namespace PrivaCloud.Operator

open Framework Kube Reconcile

namespace Deployments

def Live (s : Deployments) (c : Component) : Prop := ∃ d ∈ s.get c, 0 < d.replicas

/-- Both pods belong to one allocation, and the shares are those of its total. -/
structure OneAllocation (s : Deployments) : Prop where
  unmixed : ∀ r ∈ s.runner, ∀ t ∈ s.terminal, 0 < r.replicas → 0 < t.replicas →
    ∃ a : Allocation, r.template.allocationHash = some a.hash ∧ t.template.allocationHash = some a.hash ∧
      r.template.resources.Positive ∧ t.template.resources.Positive ∧
      r.template.resources.add t.template.resources = a.total

/-- What a handler that runs alone keeps. -/
structure Matched (allocations : Set Allocation) (s : Deployments) : Prop where
  runner : ∀ d ∈ s.runner, 0 < d.replicas → ∃ a ∈ allocations, d.template = a.template .runner
  terminal : ∀ t ∈ s.terminal, 0 < t.replicas → ∃ a ∈ allocations, 0 < a.percent ∧
    t.template = a.template .terminal ∧ ∀ d ∈ s.runner, d.template = a.template .runner

theorem Matched.oneAllocation {allocations : Set Allocation} {s : Deployments}
    (h : s.Matched allocations) : s.OneAllocation := by
  constructor
  intro r hr t ht _ hlive
  obtain ⟨a, -, hpercent, htemplate, hrunner⟩ := h.terminal t ht hlive
  rw [hrunner r hr, htemplate]
  obtain ⟨hpos, hpos'⟩ := a.positive hpercent
  exact ⟨a, rfl, rfl, hpos, hpos', a.runner_add_terminal⟩

def Rendered (allocations : Set Allocation) (s : Deployments) : OperatorOp → Prop
  | .scale .runner replicas => 0 < replicas → ∀ d ∈ s.runner, ∃ a ∈ allocations, d.template = a.template .runner
  | _ => True

variable {allocations : Set Allocation} {s : Deployments}

theorem Matched.put_runner (template : Template)
    (hterminal : ∀ t ∈ s.terminal, 0 < t.replicas → ∃ a ∈ allocations, 0 < a.percent ∧
      t.template = a.template .terminal ∧ template = a.template .runner) :
    (s.put .runner template 0).Matched allocations := by
  constructor
  · rintro d ⟨⟩ hlive
    exact absurd hlive (Nat.lt_irrefl 0)
  · intro t ht hlive
    obtain ⟨a, ha, hpercent, htemplate, hrunner⟩ := hterminal t ht hlive
    refine ⟨a, ha, hpercent, htemplate, ?_⟩
    rintro d ⟨⟩
    exact hrunner

theorem Matched.put_terminal (h : s.Matched allocations) (template : Template) :
    (s.put .terminal template 0).Matched allocations := by
  constructor
  · exact h.runner
  · rintro t ⟨⟩ hlive
    exact absurd hlive (Nat.lt_irrefl 0)

theorem Matched.scale_runner (h : s.Matched allocations) {replicas : Nat}
    (hrendered : Rendered allocations s (.scale .runner replicas)) :
    (s.scale .runner replicas).1.Matched allocations := by
  unfold scale
  cases hd : s.runner with
  | none =>
    simp only [get, hd]
    exact h
  | some d =>
    simp only [get, hd]
    constructor
    · rintro d' ⟨⟩ hlive
      exact hrendered hlive d hd
    · intro t ht hlive
      obtain ⟨a, ha, hpercent, htemplate, hrunner⟩ := h.terminal t ht hlive
      refine ⟨a, ha, hpercent, htemplate, ?_⟩
      rintro d' ⟨⟩
      exact hrunner d hd

theorem Matched.scale_terminal (h : s.Matched allocations) {replicas : Nat}
    (hnew : 0 < replicas → ∀ t ∈ s.terminal, ∃ a ∈ allocations, 0 < a.percent ∧
      t.template = a.template .terminal ∧ ∀ d ∈ s.runner, d.template = a.template .runner) :
    (s.scale .terminal replicas).1.Matched allocations := by
  unfold scale
  cases ht : s.terminal with
  | none =>
    simp only [get, ht]
    exact h
  | some t =>
    simp only [get, ht]
    constructor
    · exact h.runner
    · rintro t' ⟨⟩ hlive
      exact hnew hlive t ht

end Deployments

theorem Allocation.generation_template (a : Allocation) (c : Component) :
    (a.template c).generation = a.hash := by
  have hne : a.hash ≠ "" := by
    intro h
    have := congrArg String.toList h
    simp [Allocation.hash] at this
  cases c <;> exact if_neg hne

section Calls

open Deployments

variable {allocations : Set Allocation} {s : Deployments} {α : Type} {post : α → Deployments → Prop}

/-- Safety of a handler of these allocations. -/
abbrev SafeIn (allocations : Set Allocation) (post : α → Deployments → Prop) (x : OperatorScript α)
    (s : Deployments) : Prop :=
  Script.Safe Deployments.exec (Rendered allocations) (Matched allocations) post x s

theorem safe_quiet (h : s.Matched allocations) {op : OperatorOp} (hop : isWrite op = false)
    {f : op.Reply → OperatorScript α} (hnext : ∀ reply, SafeIn allocations post (f reply) s) :
    SafeIn allocations post (Script.call op f) s := by
  intro _ o
  rw [Deployments.exec_read s op o hop]
  exact ⟨h, fun reply _ => hnext reply⟩

theorem safe_read (h : s.Matched allocations) (c : Component) {f : Option Deployment → OperatorScript α}
    (hnext : SafeIn allocations post (f (s.get c)) s) :
    SafeIn allocations post (readDeployment c >>= f) s := by
  intro _ o
  rw [Deployments.exec_read s (.read c) o rfl]
  refine ⟨h, ?_⟩
  intro reply hreply
  simp only [Deployments.exec] at hreply
  split at hreply <;> cases hreply
  exact hnext

/-- The number that `get_replicas` returns. -/
def replicasOf : Option Deployment → Int
  | none => -1
  | some d => d.replicas

theorem safe_getReplicas (h : s.Matched allocations) (c : Component) {f : Int → OperatorScript α}
    (hnext : SafeIn allocations post (f (replicasOf (s.get c))) s) :
    SafeIn allocations post (getReplicas c >>= f) s := by
  apply Script.Safe.bind
  apply safe_read h
  cases hd : s.get c with
  | none =>
    rw [hd] at hnext
    exact hnext
  | some d =>
    rw [hd] at hnext
    exact hnext

theorem safe_appliedAllocationHash (h : s.Matched allocations) {f : Option String → OperatorScript α}
    (hnext : SafeIn allocations post (f (s.runner.map fun d => d.template.generation)) s) :
    SafeIn allocations post (appliedAllocationHash >>= f) s := by
  apply Script.Safe.bind
  apply safe_read h
  exact hnext

theorem safe_desired (h : s.Matched allocations) (a : Option Allocation) {f : Allocation → OperatorScript α}
    (hnext : ∀ b, a = some b → SafeIn allocations post (f b) s) :
    SafeIn allocations post (desired a >>= f) s := by
  cases a with
  | some b => exact hnext b rfl
  | none => exact safe_quiet h rfl fun never => nomatch never

theorem safe_write {op : OperatorOp} {f : op.Reply → OperatorScript α} (h : s.Matched allocations)
    (hwrite : Rendered allocations s op → ∀ o, o.raised = false → (s.exec op o).1.Matched allocations ∧
        ∀ reply, (s.exec op o).2 = some reply → SafeIn allocations post (f reply) (s.exec op o).1) :
    SafeIn allocations post (Script.call op f) s := by
  intro hpre o
  cases hraised : o.raised with
  | true =>
    have hnothing : s.exec op o = (s, none) := by
      unfold Deployments.exec
      rw [if_pos hraised]
    rw [hnothing]
    exact ⟨h, fun _ hreply => nomatch hreply⟩
  | false => exact hwrite hpre o hraised

theorem exec_create {c : Component} {template : Template} {o : Oracle} (hraised : o.raised = false)
    (hget : s.get c = none) : s.exec (.create c template) o = (s.put c template 0, some ()) := by
  simp [Deployments.exec, Deployments.create, hraised, hget]
  rfl

theorem safe_createRunner (h : s.Matched allocations) (template : Template) (hnone : s.runner = none)
    (hterminal : ∀ t ∈ s.terminal, 0 < t.replicas → ∃ a ∈ allocations, 0 < a.percent ∧
      t.template = a.template .terminal ∧ template = a.template .runner) {post : Unit → Deployments → Prop}
    (hpost : (s.put .runner template 0).Matched allocations → post () (s.put .runner template 0)) :
    SafeIn allocations post (createDeployment .runner template) s := by
  refine safe_write h ?_
  intro _ o hraised
  rw [exec_create hraised (c := .runner) hnone]
  have hmatched : (s.put .runner template 0).Matched allocations := .put_runner template hterminal
  exact ⟨hmatched, fun _ _ => hpost hmatched⟩

theorem exec_replace {c : Component} {template : Template} {existing : Deployment} {o : Oracle}
    (hraised : o.raised = false) (hget : s.get c = some existing) :
    s.exec (.replace c template existing.replicas existing.resourceVersion) o =
      (s.put c template existing.replicas, some ()) := by
  simp [Deployments.exec, Deployments.replace, hraised, hget]
  rfl

theorem safe_replaceRunner (h : s.Matched allocations) (template : Template) {existing : Deployment}
    (hget : s.runner = some existing) (hzero : existing.replicas = 0)
    (hasleep : ∀ t ∈ s.terminal, ¬ 0 < t.replicas) {post : Unit → Deployments → Prop}
    (hpost : (s.put .runner template 0).Matched allocations → post () (s.put .runner template 0)) :
    SafeIn allocations post (replaceDeployment .runner template existing) s := by
  refine safe_write h ?_
  intro _ o hraised
  rw [exec_replace hraised (c := .runner) hget, hzero]
  have hmatched : (s.put .runner template 0).Matched allocations :=
    .put_runner template fun t ht hlive => absurd hlive (hasleep t ht)
  exact ⟨hmatched, fun _ _ => hpost hmatched⟩

theorem safe_scale (h : s.Matched allocations) (c : Component) (replicas : Nat)
    (hscale : Rendered allocations s (.scale c replicas) → (s.scale c replicas).1.Matched allocations)
    {post : Unit → Deployments → Prop} (hpost : ∀ s', s'.Matched allocations → post () s') :
    SafeIn allocations post (Kube.scale c replicas) s := by
  refine safe_write h ?_
  intro hrendered o hraised
  have hexec : (s.exec (.scale c replicas) o).1 = (s.scale c replicas).1 := by
    simp [Deployments.exec, hraised]
  have hmatched : (s.exec (.scale c replicas) o).1.Matched allocations := by
    rw [hexec]
    exact hscale hrendered
  exact ⟨hmatched, fun _ _ => hpost _ hmatched⟩

theorem safe_scaleZero (h : s.Matched allocations) (c : Component) {post : Unit → Deployments → Prop}
    (hpost : ∀ s', s'.Matched allocations → post () s') :
    SafeIn allocations post (Kube.scale c 0) s := by
  cases c with
  | runner => exact safe_scale h .runner 0 h.scale_runner hpost
  | terminal => exact safe_scale h .terminal 0 (fun _ => h.scale_terminal fun hpos => absurd hpos (Nat.lt_irrefl 0)) hpost

end Calls

section Functions

open Deployments

variable {allocations : Set Allocation} {s : Deployments} {post : Unit → Deployments → Prop}

def HandlerArgs.Within (args : HandlerArgs) (allocations : Set Allocation) : Prop :=
  ∀ defaults ∈ args.defaults, ∀ a ∈ resolveAllocation args.spec args.settings defaults, a ∈ allocations

theorem safe_ensureRuntimeObjects (hinj : Set.InjOn Allocation.hash allocations) (h : s.Matched allocations)
    (args : HandlerArgs) (defaults : RunnerDefaults)
    (hknown : ∀ a ∈ resolveAllocation args.spec args.settings defaults, a ∈ allocations)
    (hpost : ∀ s', s'.Matched allocations → s'.terminal = s.terminal →
      (¬ s.Live .terminal → ∀ d, s.runner = some d → d.replicas = 0 →
        ∀ a ∈ resolveAllocation args.spec args.settings defaults,
          ∀ d' ∈ s'.runner, d'.template = a.template .runner) → post () s') :
    SafeIn allocations post (ensureRuntimeObjects args defaults) s := by
  refine safe_quiet h rfl fun _ => ?_
  refine safe_quiet h rfl fun _ => ?_
  refine safe_desired h _ fun a ha => ?_
  have hmem := hknown a ha
  -- the Runner that is written is the one of the allocation
  have hwritten (s' : Deployments) (hs' : s'.runner = some ⟨a.template .runner, 0, s.version + 1⟩) :
      ∀ b ∈ resolveAllocation args.spec args.settings defaults, ∀ d' ∈ s'.runner,
        d'.template = b.template .runner := by
    intro b hb d' hd'
    rw [Option.mem_unique hb ha]
    rw [hs'] at hd'
    cases hd'
    rfl
  refine safe_read h .runner ?_
  cases hrunner : s.runner with
  | none =>
    have hcreate (hterminal : ∀ t ∈ s.terminal, 0 < t.replicas → a.hash = t.template.generation) :
        SafeIn allocations post (createDeployment .runner (a.template .runner)) s := by
      refine safe_createRunner h _ hrunner ?_ ?_
      · intro t ht hlive
        obtain ⟨b, hb, hpercent, htemplate, -⟩ := h.terminal t ht hlive
        have hhash : a.hash = b.hash := by
          rw [hterminal t ht hlive, htemplate, Allocation.generation_template]
        obtain rfl := hinj hmem hb hhash
        exact ⟨a, hb, hpercent, htemplate, rfl⟩
      · intro hmatched
        refine hpost _ hmatched rfl ?_
        intro _ d hd
        rw [hrunner] at hd
        cases hd
    simp only [Deployments.get, hrunner]
    refine safe_read h .terminal ?_
    cases hterminal : s.terminal with
    | none =>
      simp only [Deployments.get, hterminal]
      exact hcreate fun t ht => by simp [hterminal] at ht
    | some t =>
      simp only [Deployments.get, hterminal]
      split
      · refine hpost s h rfl ?_
        intro _ d hd
        rw [hrunner] at hd
        cases hd
      · rename_i hmay
        apply hcreate
        intro t' ht' hlive
        rw [hterminal] at ht'
        cases ht'
        by_contra hne
        exact hmay ⟨hlive, hne⟩
  | some existing =>
    simp only [Deployments.get, hrunner]
    split
    · rename_i hlive
      refine hpost s h rfl ?_
      intro _ d hd hzero
      rw [hrunner] at hd
      cases hd
      omega
    · rename_i hsleeps
      have hreplace (hasleep : ∀ t ∈ s.terminal, ¬ 0 < t.replicas) :
          SafeIn allocations post (replaceDeployment .runner (a.template .runner) existing) s := by
        refine safe_replaceRunner h _ hrunner (by omega) hasleep ?_
        intro hmatched
        exact hpost _ hmatched rfl fun _ _ _ _ => hwritten _ rfl
      refine safe_read h .terminal ?_
      cases hterminal : s.terminal with
      | none =>
        simp only [Deployments.get, hterminal]
        exact hreplace fun t ht => by simp [hterminal] at ht
      | some t =>
        simp only [Deployments.get, hterminal]
        split
        · rename_i hlive
          split
          · exact safe_quiet h rfl fun never => nomatch never
          · refine hpost s h rfl ?_
            intro hnot
            exact absurd ⟨t, hterminal, hlive⟩ hnot
        · rename_i hasleep
          apply hreplace
          intro t' ht'
          rw [hterminal] at ht'
          cases ht'
          exact hasleep

theorem safe_ensureTerminalObjects (h : s.Matched allocations) (args : HandlerArgs) (defaults : RunnerDefaults)
    (hpost : ∀ s', s'.Matched allocations → s'.runner = s.runner →
      (s.Live .terminal → s'.terminal = s.terminal) →
      (¬ s.Live .terminal → 0 < resolveTerminalPercent defaults →
        ∀ a ∈ resolveAllocation args.spec args.settings defaults,
          ∀ t ∈ s'.terminal, t.template = a.template .terminal) → post () s') :
    SafeIn allocations post (ensureTerminalObjects args defaults) s := by
  unfold ensureTerminalObjects
  split
  · rename_i hdisabled
    refine hpost s h rfl (fun _ => rfl) ?_
    intro _ hpercent
    omega
  · refine safe_quiet h rfl fun _ => ?_
    refine safe_quiet h rfl fun _ => ?_
    refine safe_desired h _ fun a ha => ?_
    have hmatched : (s.put .terminal (a.template .terminal) 0).Matched allocations := h.put_terminal _
    have hdone (hasleep : ¬ s.Live .terminal) : post () (s.put .terminal (a.template .terminal) 0) := by
      refine hpost _ hmatched rfl (fun hlive => absurd hlive hasleep) ?_
      rintro - - b hb t ⟨⟩
      rw [Option.mem_unique hb ha]
    refine safe_read h .terminal ?_
    cases hterminal : s.terminal with
    | none =>
      simp only [Deployments.get, hterminal]
      refine safe_write h ?_
      intro _ o hraised
      rw [exec_create hraised (c := .terminal) hterminal]
      exact ⟨hmatched, fun _ _ => hdone fun ⟨t, ht, _⟩ => by simp [Deployments.get, hterminal] at ht⟩
    | some existing =>
      simp only [Deployments.get, hterminal]
      split
      · rename_i hlive
        refine hpost s h rfl (fun _ => rfl) ?_
        intro hnot
        exact absurd ⟨existing, hterminal, hlive⟩ hnot
      · rename_i hsleeps
        have hasleep : ¬ s.Live .terminal := by
          rintro ⟨t, ht, hlive⟩
          rw [Option.mem_unique ht hterminal] at hlive
          exact hsleeps hlive
        refine safe_write h ?_
        intro _ o hraised
        have hzero : existing.replicas = 0 := by omega
        rw [exec_replace hraised (c := .terminal) hterminal, hzero]
        exact ⟨hmatched, fun _ _ => hdone hasleep⟩

end Functions

end PrivaCloud.Operator
