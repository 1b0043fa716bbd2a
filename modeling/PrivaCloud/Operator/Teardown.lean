import PrivaCloud.Operator.Cluster
import PrivaCloud.Operator.Convergence

/-!
# Teardown of a tenant

Every handler checks whether a teardown has begun before it does anything else. Once the volume is
being deprovisioned, a handler that starts does nothing any more; one that is past its check goes on.
-/

namespace PrivaCloud.Operator

open Framework Kube Reconcile

/-- A call that brings back what a teardown removes. -/
def Revives : OperatorOp → Prop
  | .provision _ | .create _ _ => True
  | .replace _ _ replicas _ | .scale _ replicas => 0 < replicas
  | _ => False

instance : DecidablePred Revives := fun event => by
  cases event <;> dsimp only [Revives] <;> infer_instance

variable {op : OperatorOp} {uid : String}

section Inert

variable {α : Type} {uid : String}

/-- The replies once the purge of the object has been recorded. -/
def Refused (uid : String) : (op : OperatorOp) → op.Reply → Prop
  | .teardownStarted uid' _, reply => uid' = uid → reply = true
  | _, _ => True

/-- The script makes no such call any more, or only after it has checked again. -/
abbrev Inert (uid : String) (x : OperatorScript α) : Prop := x.Within (¬ Revives ·) (Refused uid)

private theorem inert_perform (h : ¬ Revives op) :
    Inert uid (Script.perform op : OperatorScript op.Reply) := Script.Within.perform h

private theorem inert_call {f : op.Reply → OperatorScript α}
    (hf : ∀ reply, Inert uid (f reply)) (h : ¬ Revives op) : Inert uid (Script.perform op >>= f) :=
  Script.Within.bind (inert_perform h) hf

private theorem inert_getReplicas (c : Component) : Inert uid (getReplicas c) := by
  refine inert_call ?_ id
  intro d
  cases d <;> trivial

theorem inert_admitted (args : HandlerArgs) (body : OperatorScript Unit) : Inert args.uid (admitted args body) := by
  refine ⟨id, ?_⟩
  intro reply hreply
  have htrue : reply = true := hreply rfl
  subst htrue
  trivial

private theorem inert_scaleDown (c : Component) (replicas : Int) : Inert uid (scaleDown c replicas) := by
  unfold Reconcile.scaleDown
  split
  · exact Script.Within.perform (Nat.lt_irrefl 0)
  · trivial

private theorem inert_purge (args : HandlerArgs) : Inert uid (purge args) := by
  refine inert_call ?_ id
  intro _
  apply Script.Within.bind (inert_getReplicas _)
  intro replicas
  apply Script.Within.bind (inert_scaleDown _ _)
  intro _
  apply Script.Within.bind (inert_getReplicas _)
  intro terminalReplicas
  apply Script.Within.bind (inert_scaleDown _ _)
  intro _
  refine inert_call ?_ id
  intro _
  exact inert_call (fun _ => trivial) id

private theorem inert_desired (a : Option Allocation) : Inert uid (desired a) := by
  cases a with
  | some a => trivial
  | none => exact ⟨id, fun never => nomatch never⟩

private theorem inert_onResourcesChange (args : HandlerArgs) : Inert uid (onResourcesChange args) := by
  apply Script.Within.bind (inert_getReplicas _)
  intro replicas
  apply Script.Within.bind (inert_getReplicas _)
  intro terminalReplicas
  split
  · trivial
  · unfold Reconcile.withDefaults
    split
    · trivial
    · apply Script.Within.bind (inert_desired _)
      intro a
      refine inert_call ?_ id
      intro _
      apply Script.Within.bind (inert_getReplicas _)
      intro terminalReplicas
      split
      · exact inert_perform id
      · trivial

private theorem inert_script (request : HandlerRequest) : Inert request.args.uid request.script := by
  obtain ⟨name, args⟩ := request
  cases name with
  | purge => exact inert_purge args
  | onResourcesChange => exact inert_onResourcesChange args
  | ensure | onWake | onTerminalWake | reconcileRuntime | reconcileTerminal => exact inert_admitted args _

end Inert

/-- The calls of every handler but `purge`. -/
def Ordinary : OperatorOp → Prop
  | .deprovision | .recordPurging _ => False
  | _ => True

/-- The script never tears down. -/
abbrev Plain {α : Type} (x : OperatorScript α) : Prop := x.Within Ordinary fun _ _ => True

private theorem plain_pure {α : Type} (a : α) : Plain (Pure.pure a : OperatorScript α) := trivial

private theorem plain_perform (h : Ordinary op) :
    Plain (Script.perform op : OperatorScript op.Reply) := Script.Within.perform h

private theorem plain_call {α : Type} {f : op.Reply → OperatorScript α}
    (hf : ∀ reply, Plain (f reply)) (h : Ordinary op) : Plain (Script.perform op >>= f) :=
  Script.Within.bind (plain_perform h) hf

theorem plain_ite {p : Prop} {_ : Decidable p} {α : Type} {x y : OperatorScript α} (hx : Plain x) (hy : Plain y) :
    Plain (if p then x else y) := by
  split
  · exact hx
  · exact hy

private theorem plain_converges {α : Type} {x : OperatorScript α} (h : Converges x) : Plain x := by
  refine h.mono ?_
  intro op hop
  cases op <;> trivial

private theorem plain_getReplicas (c : Component) : Plain (getReplicas c) := plain_converges (converges_getReplicas c)

private theorem plain_applied : Plain appliedAllocationHash := plain_converges converges_appliedAllocationHash

private theorem plain_desired (a : Option Allocation) : Plain (desired a) := plain_converges (converges_desired a)

private theorem plain_ensureRuntimeObjects (args : HandlerArgs) (defaults : RunnerDefaults) :
    Plain (ensureRuntimeObjects args defaults) := plain_converges (converges_ensureRuntimeObjects args defaults)

private theorem plain_ensureTerminalObjects (args : HandlerArgs) (defaults : RunnerDefaults) :
    Plain (ensureTerminalObjects args defaults) := plain_converges (converges_ensureTerminalObjects args defaults)

private theorem plain_takeDown (c : Component) (replicas : Int) : Plain (takeDown c replicas) :=
  plain_ite (plain_call (fun _ => plain_perform trivial) trivial) (plain_pure _)

private theorem plain_scaleDown (c : Component) (replicas : Int) : Plain (scaleDown c replicas) := by
  unfold Reconcile.scaleDown
  split
  · exact plain_perform trivial
  · trivial

private theorem plain_awaitPod (c : Component) : Plain (awaitPod c) :=
  plain_call (fun _ => trivial) trivial

private theorem plain_scaleUpRunner {after : OperatorScript Unit} (h : Plain after) : Plain (scaleUpRunner after) := by
  apply Script.Within.bind (plain_getReplicas _)
  intro replicas
  apply plain_ite (plain_pure _)
  exact plain_call (fun _ => h) trivial

private theorem plain_quiesceIfInactive (args : HandlerArgs) : Plain (quiesceIfInactive args) := by
  apply plain_ite (plain_pure _)
  apply Script.Within.bind (plain_getReplicas _)
  intro _
  apply Script.Within.bind (plain_getReplicas _)
  intro _
  apply Script.Within.bind (plain_takeDown _ _)
  intro _
  exact Script.Within.bind (plain_takeDown _ _) fun _ => trivial

private theorem plain_admitted (args : HandlerArgs) {body : OperatorScript Unit} (h : Plain body) :
    Plain (admitted args body) := by
  refine plain_call ?_ trivial
  intro started
  apply plain_ite (plain_pure _)
  apply Script.Within.bind (plain_quiesceIfInactive args)
  intro quiesced
  exact plain_ite (plain_pure _) (plain_ite h (plain_pure _))

private theorem plain_withDefaults (args : HandlerArgs) {body : RunnerDefaults → OperatorScript Unit}
    (h : ∀ defaults, Plain (body defaults)) : Plain (withDefaults args body) := by
  unfold Reconcile.withDefaults
  split
  · trivial
  · exact h _

private theorem plain_ensure (args : HandlerArgs) : Plain (ensure args) := by
  apply plain_admitted
  apply plain_withDefaults
  intro defaults
  apply Script.Within.bind (plain_desired _)
  intro _
  refine plain_call ?_ trivial
  intro _
  apply Script.Within.bind (plain_ensureRuntimeObjects _ _)
  intro _
  apply Script.Within.bind
  · apply plain_ite
    · apply Script.Within.bind (plain_ensureTerminalObjects _ _)
      exact fun _ => Script.Within.bind (plain_getReplicas _) fun _ => trivial
    · apply Script.Within.bind (plain_getReplicas _)
      exact fun _ => plain_scaleDown _ _
  · intro _
    apply Script.Within.bind (plain_getReplicas _)
    intro replicas
    apply plain_ite _ (plain_pure _)
    apply plain_ite (plain_pure _)
    apply plain_ite _ (plain_awaitPod _)
    exact plain_call (fun _ => plain_awaitPod _) trivial

private theorem plain_onWake (args : HandlerArgs) : Plain (onWake args) := by
  apply plain_admitted
  apply Script.Within.bind (plain_getReplicas _)
  intro replicas
  apply plain_ite (plain_awaitPod _)
  apply plain_withDefaults
  intro defaults
  apply Script.Within.bind (plain_ensureRuntimeObjects _ _)
  exact fun _ => plain_scaleUpRunner (plain_awaitPod _)

private theorem plain_onTerminalWake (args : HandlerArgs) : Plain (onTerminalWake args) := by
  apply plain_admitted
  apply plain_withDefaults
  intro defaults
  apply Script.Within.bind (plain_desired _)
  intro a
  apply plain_ite (plain_pure _)
  apply Script.Within.bind (plain_getReplicas _)
  intro runnerReplicas
  apply Script.Within.bind (plain_getReplicas _)
  intro terminalReplicas
  apply Script.Within.bind plain_applied
  intro applied
  apply Script.Within.bind
  · apply plain_ite _ (plain_pure _)
    exact Script.Within.bind (plain_ensureRuntimeObjects _ _) fun _ => plain_applied
  · intro applied
    have hwake : Plain (wakeTerminal args defaults a runnerReplicas terminalReplicas applied) := by
      apply plain_ite (plain_pure _)
      apply plain_ite (plain_awaitPod _)
      apply Script.Within.bind (plain_ensureTerminalObjects _ _)
      intro _
      exact plain_call (fun _ => plain_awaitPod _) trivial
    apply plain_ite _ hwake
    exact plain_call (fun _ => hwake) trivial

private theorem plain_sweepRunner (args : HandlerArgs) (defaults : RunnerDefaults) (a : Allocation) :
    Plain (sweepRunner args defaults a) := by
  refine plain_call ?_ trivial
  intro ip
  split
  · trivial
  · apply plain_ite (plain_pure _)
    apply Script.Within.bind plain_applied
    intro applied
    apply plain_ite
    · apply plain_ite _ (plain_pure _)
      refine plain_call ?_ trivial
      intro health
      split
      · trivial
      · exact plain_ite (plain_takeDown _ _) (plain_pure _)
    · split
      · trivial
      · trivial
      · refine plain_call ?_ trivial
        intro now
        apply plain_ite (plain_pure _)
        refine plain_call ?_ trivial
        intro health
        split
        · trivial
        · exact plain_ite (plain_takeDown _ _) (plain_pure _)

private theorem plain_reconcileRuntime (args : HandlerArgs) : Plain (reconcileRuntime args) := by
  apply plain_admitted
  apply Script.Within.bind (plain_getReplicas _)
  intro replicas
  apply plain_withDefaults
  intro defaults
  apply Script.Within.bind (plain_desired _)
  intro a
  refine plain_call ?_ trivial
  intro _
  apply Script.Within.bind
  · refine plain_call ?_ trivial
    intro now
    exact plain_ite (plain_call (fun _ => trivial) trivial) (plain_pure _)
  · intro _
    apply plain_ite
    · refine plain_call ?_ trivial
      intro started
      apply plain_ite (plain_pure _)
      apply Script.Within.bind plain_applied
      intro applied
      have hwake : Plain (scaleUpRunner (Pure.pure ())) := plain_scaleUpRunner trivial
      apply plain_ite _ (plain_ite hwake (plain_pure _))
      exact Script.Within.bind (plain_ensureRuntimeObjects _ _) fun _ => plain_ite hwake (plain_pure _)
    · exact plain_ite (plain_sweepRunner _ _ _) (plain_pure _)

private theorem plain_reconcileTerminal (args : HandlerArgs) : Plain (reconcileTerminal args) := by
  apply plain_admitted
  apply plain_withDefaults
  intro defaults
  apply Script.Within.bind (plain_desired _)
  intro a
  apply Script.Within.bind (plain_getReplicas _)
  intro replicas
  apply plain_ite (plain_takeDown _ _)
  apply Script.Within.bind (plain_getReplicas _)
  intro runnerReplicas
  refine plain_call ?_ trivial
  intro _
  apply Script.Within.bind plain_applied
  intro applied
  apply plain_ite (plain_pure _)
  apply plain_ite
  · refine plain_call ?_ trivial
    exact fun _ => plain_ite (plain_pure _) (plain_ensureTerminalObjects _ _)
  · apply plain_ite _ (plain_pure _)
    refine plain_call ?_ trivial
    intro ip
    split
    · trivial
    · refine plain_call ?_ trivial
      intro health
      split
      · trivial
      · refine plain_call ?_ trivial
        intro now
        apply plain_ite _ (plain_pure _)
        split
        · exact plain_ite (plain_perform trivial) (plain_perform trivial)
        · refine plain_call ?_ trivial
          intro drained
          apply plain_ite _ (plain_pure _)
          exact plain_call (fun _ => plain_perform trivial) trivial

private theorem plain_onResourcesChange (args : HandlerArgs) : Plain (onResourcesChange args) := by
  apply Script.Within.bind (plain_getReplicas _)
  intro replicas
  apply Script.Within.bind (plain_getReplicas _)
  intro terminalReplicas
  apply plain_ite (plain_pure _)
  apply plain_withDefaults
  intro defaults
  apply Script.Within.bind (plain_desired _)
  intro a
  refine plain_call ?_ trivial
  intro _
  apply Script.Within.bind (plain_getReplicas _)
  intro _
  split
  · exact plain_perform trivial
  · trivial

private theorem plain_script (request : HandlerRequest) (h : request.name ≠ .purge) : Plain request.script := by
  obtain ⟨name, args⟩ := request
  cases name with
  | purge => exact absurd rfl h
  | ensure => exact plain_ensure args
  | onWake => exact plain_onWake args
  | onTerminalWake => exact plain_onTerminalWake args
  | reconcileRuntime => exact plain_reconcileRuntime args
  | reconcileTerminal => exact plain_reconcileTerminal args
  | onResourcesChange => exact plain_onResourcesChange args

def Records (uid : String) : OperatorOp → Prop
  | .recordPurging uid' => uid' = uid
  | _ => True

abbrev RecordsOnly {α : Type} (uid : String) (x : OperatorScript α) : Prop := x.Within (Records uid) fun _ _ => True

private theorem recordsOnly_call {α : Type} {f : op.Reply → OperatorScript α}
    (hf : ∀ reply, RecordsOnly uid (f reply)) (h : Records uid op) :
    RecordsOnly uid (Script.perform op >>= f) :=
  ⟨h, fun reply _ => hf reply⟩

private theorem recordsOnly_purge (args : HandlerArgs) : RecordsOnly args.uid (purge args) := by
  have hread (c : Component) : RecordsOnly args.uid (getReplicas c) := by
    refine recordsOnly_call ?_ trivial
    intro d
    cases d <;> trivial
  have hscale (c : Component) (replicas : Int) : RecordsOnly args.uid (scaleDown c replicas) := by
    unfold Reconcile.scaleDown
    split
    · exact Script.Within.perform trivial
    · trivial
  refine recordsOnly_call ?_ rfl
  intro _
  apply Script.Within.bind (hread _)
  intro _
  apply Script.Within.bind (hscale _ _)
  intro _
  apply Script.Within.bind (hread _)
  intro _
  apply Script.Within.bind (hscale _ _)
  intro _
  refine recordsOnly_call ?_ trivial
  intro _
  exact recordsOnly_call (fun _ => trivial) trivial

theorem Plain.recordsOnly {α : Type} {x : OperatorScript α} (h : Plain x) (uid : String) : RecordsOnly uid x := by
  refine h.mono ?_
  intro op hop
  cases op with
  | recordPurging uid' => exact hop.elim
  | _ => trivial

def teardownProgram : Program (Script.Stamped TenantCluster) (Script.Task OperatorOp OperatorOp.Reply)
    HandlerRequest Oracle Empty :=
  Script.program TenantCluster.exec Deployments.isWrite HandlerRequest.script

abbrev TeardownState : Type :=
  Processes (Script.Stamped TenantCluster) (Script.Task OperatorOp OperatorOp.Reply)

abbrev TeardownEvent : Type := ProcessEvent HandlerRequest Oracle Empty

def nextOp (task : Script.Task OperatorOp OperatorOp.Reply) : Option OperatorOp :=
  match task.script with
  | .pure _ => none
  | .call op _ => some op

/-- Once the deprovisioning has begun, no section brings anything back. -/
def StaysDown (s : TeardownState) : TeardownEvent → Prop
  | .advance i _ => ∀ task ∈ s.procs[i]?, ∀ op ∈ nextOp task, s.shared.state.deprovisioned = true → ¬ Revives op
  | .spawn _ | .outside _ => True

instance (s : TeardownState) : (event : TeardownEvent) → Decidable (StaysDown s event)
  | .advance i _ => inferInstanceAs (Decidable (∀ task ∈ s.procs[i]?, ∀ op ∈ nextOp task, _ → _))
  | .spawn _ | .outside _ => .isTrue trivial

/-- The deprovisioning begins when every other handler that has begun is past its last call that brings
something back, or checks again before the next one. -/
def Settled (uid : String) (s : TeardownState) : TeardownEvent → Prop
  | .advance i _ => ∀ task ∈ s.procs[i]?, nextOp task = some .deprovision →
      ∀ j, j ≠ i → ∀ other ∈ s.procs[j]?, other.stamp ≠ none → Inert uid other.script
  | .spawn _ | .outside _ => True

namespace TenantCluster

variable {s : TenantCluster} {op : OperatorOp} {o : Oracle}

private theorem exec_purging (h : ∀ uid, op ≠ .recordPurging uid) : (s.exec op o).1.purging = s.purging := by
  cases op with
  | recordPurging uid => exact absurd rfl (h uid)
  | teardownStarted uid deleting | deprovision | provision storageGb =>
    simp only [exec]
    split <;> rfl
  | _ => rfl

private theorem exec_deprovisioned (h : op ≠ .deprovision) : (s.exec op o).1.deprovisioned = s.deprovisioned := by
  cases op with
  | deprovision => exact absurd rfl h
  | teardownStarted uid deleting | provision storageGb =>
    simp only [exec]
    split <;> rfl
  | _ => rfl

private theorem exec_refused (hp : s.purging = some uid) {reply : op.Reply}
    (h : (s.exec op o).2 = some reply) : Refused uid op reply := by
  cases op with
  | teardownStarted uid' deleting =>
    rintro rfl
    simp only [exec] at h
    split at h
    · cases h
    · simp only [hp, decide_true, Bool.true_or] at h
      exact (Option.some.inj h).symm
  | _ => trivial

end TenantCluster

/-- What is known of a task: it is inert once the deprovisioning has begun and as long as it has made no
call, and if it may tear down, it is inert and records the purge first. -/
structure Awaits (uid : String) (s : Script.Stamped TenantCluster)
    (task : Script.Task OperatorOp OperatorOp.Reply) : Prop where
  inert : s.state.deprovisioned = true ∨ task.stamp = none → Inert uid task.script
  records : RecordsOnly uid task.script
  tears : Plain task.script ∨ Inert uid task.script ∧
    (s.state.purging = some uid ∨ ∃ next, task.script = .call (.recordPurging uid) next)

def Recorded (uid : String) (s : Script.Stamped TenantCluster) : Prop :=
  s.state.deprovisioned = true → s.state.purging = some uid

private theorem awaits_script {s : Script.Stamped TenantCluster} (request : HandlerRequest) :
    Awaits request.args.uid s ⟨none, request.script⟩ := by
  by_cases hp : request.name = .purge
  · obtain ⟨name, args⟩ := request
    obtain rfl : name = .purge := hp
    exact ⟨fun _ => inert_purge args, recordsOnly_purge args, .inr ⟨inert_purge args, .inr ⟨_, rfl⟩⟩⟩
  · have hplain := plain_script request hp
    exact ⟨fun _ => inert_script request, hplain.recordsOnly _, .inl hplain⟩

section Step

variable {uid : String} {s : Script.Stamped TenantCluster} {stamp : Option Nat} {op : OperatorOp}
  {next : op.Reply → OperatorScript Unit} {o : Oracle}

private theorem Awaits.keeps_purging (h : Awaits uid s ⟨stamp, .call op next⟩) (hp : s.state.purging = some uid) :
    (s.state.exec op o).1.purging = some uid := by
  have hrecords : Records uid op := h.records.1
  cases op with
  | recordPurging uid' =>
    obtain rfl : uid' = uid := hrecords
    rfl
  | _ => exact (TenantCluster.exec_purging (by rintro _ ⟨⟩)).trans hp

private theorem Awaits.of_deprovision (h : Awaits uid s ⟨stamp, .call op next⟩) (hop : op = .deprovision) :
    Inert uid (.call op next) ∧ s.state.purging = some uid := by
  subst hop
  rcases h.tears with hplain | ⟨hinert, hp | ⟨_, heq⟩⟩
  · exact hplain.1.elim
  · exact ⟨hinert, hp⟩
  · cases heq

private theorem Recorded.act (hr : Recorded uid s) (h : Awaits uid s ⟨stamp, .call op next⟩)
    (hdown : (s.state.exec op o).1.deprovisioned = true) : (s.state.exec op o).1.purging = some uid := by
  by_cases hop : op = .deprovision
  · exact h.keeps_purging (h.of_deprovision hop).2
  · rw [TenantCluster.exec_deprovisioned hop] at hdown
    exact h.keeps_purging (hr hdown)

private theorem Awaits.act (hr : Recorded uid s) (h : Awaits uid s ⟨stamp, .call op next⟩) {reply : op.Reply}
    (hreply : (s.state.exec op o).2 = some reply) {writes stamp' : Nat} :
    Awaits uid ⟨(s.state.exec op o).1, writes⟩ ⟨some stamp', next reply⟩ := by
  have hinert (hp : s.state.purging = some uid) (hi : Inert uid (.call op next : OperatorScript Unit)) :
      Inert uid (next reply) := hi.2 reply (TenantCluster.exec_refused hp hreply)
  refine ⟨?_, h.records.2 reply trivial, ?_⟩
  · rintro (hdown | hnever)
    · by_cases hop : op = .deprovision
      · obtain ⟨hi, hp⟩ := h.of_deprovision hop
        exact hinert hp hi
      · have hold : s.state.deprovisioned = true := (TenantCluster.exec_deprovisioned hop).symm.trans hdown
        exact hinert (hr hold) (h.inert (.inl hold))
    · cases hnever
  · rcases h.tears with hplain | ⟨hi, hp | ⟨_, heq⟩⟩
    · exact .inl (hplain.2 reply trivial)
    · exact .inr ⟨hinert hp hi, .inl (h.keeps_purging hp)⟩
    · cases heq
      exact .inr ⟨hi.2 reply trivial, .inl rfl⟩

private theorem Awaits.others {other : Script.Task OperatorOp OperatorOp.Reply} (hother : Awaits uid s other)
    (h : Awaits uid s ⟨stamp, .call op next⟩)
    (hsettled : op = .deprovision → other.stamp ≠ none → Inert uid other.script) {writes : Nat} :
    Awaits uid ⟨(s.state.exec op o).1, writes⟩ other := by
  refine ⟨?_, hother.records, ?_⟩
  · rintro (hdown | hnone)
    · by_cases hstamp : other.stamp = none
      · exact hother.inert (.inr hstamp)
      · by_cases hop : op = .deprovision
        · exact hsettled hop hstamp
        · exact hother.inert (.inl ((TenantCluster.exec_deprovisioned hop).symm.trans hdown))
    · exact hother.inert (.inr hnone)
  · exact hother.tears.imp_right fun hi => ⟨hi.1, hi.2.imp_left h.keeps_purging⟩

end Step

private theorem awaits_of_act {s : TeardownState} {i : Nat} {oracle : Oracle}
    {task : Script.Task OperatorOp OperatorOp.Reply}
    {after : Script.Stamped TenantCluster × Script.Task OperatorOp OperatorOp.Reply}
    (hi : Program.Holds (Recorded uid) (Awaits uid) s) (hc : Settled uid s (.advance i oracle))
    (htask : s.procs[i]? = some task) (hact : teardownProgram.act s.shared task oracle = some after) :
    Recorded uid after.1 ∧ Awaits uid after.1 after.2 ∧
      ∀ j other, j ≠ i → s.procs[j]? = some other → Awaits uid s.shared other → Awaits uid after.1 other := by
  have hown := hi.2 task (List.mem_of_getElem? htask)
  obtain ⟨stamp, script⟩ := task
  cases script with
  | pure a => cases hact
  | call op next =>
    cases hact
    refine ⟨hi.1.act hown, ?_, ?_⟩
    · have hstamp : ∃ t, (if stamp.getD s.shared.writes = s.shared.writes
          then some (s.shared.writes + (Deployments.isWrite op).toNat) else stamp) = some t := by
        cases stamp with
        | none => exact ⟨_, if_pos rfl⟩
        | some t =>
          split
          · exact ⟨_, rfl⟩
          · exact ⟨t, rfl⟩
      obtain ⟨t, ht⟩ := hstamp
      simp only [ht]
      cases hreply : (s.shared.state.exec op oracle).2 with
      | none => exact ⟨fun _ => trivial, trivial, .inl trivial⟩
      | some reply => exact hown.act hi.1 hreply
    · intro j other hj hother hknown
      exact hknown.others hown fun hop => hc _ htask (congrArg some hop) j hj other hother

private theorem teardownProgram_step {s s' : TeardownState} {event : TeardownEvent}
    (hi : Program.Holds (Recorded uid) (Awaits uid) s)
    (hc : (∀ request, event = .spawn request → request.args.uid = uid) ∧ Settled uid s event)
    (hs : teardownProgram.step s event = some s') : Program.Holds (Recorded uid) (Awaits uid) s' := by
  refine hi.step (fun s event => (∀ request, event = .spawn request → request.args.uid = uid) ∧
    Settled uid s event) event hc ?_ ?_ ?_ hs
  · intro s request _ hc
    obtain rfl := hc.1 request rfl
    exact awaits_script request
  · intro s i oracle task after hi hc htask hact
    exact awaits_of_act hi hc.2 htask hact
  · intro s event
    cases event

/-- If every deprovisioning begins when the handlers are settled, a teardown is never undone. -/
theorem staysDown_of_settled {uid : String} {s : TeardownState} {events : List TeardownEvent}
    (hidle : s.procs = []) (hup : s.shared.state.deprovisioned = false)
    (hown : ∀ request, .spawn request ∈ events → request.args.uid = uid)
    (hm : RunMeets teardownProgram.step (Settled uid) s events) :
    RunMeets teardownProgram.step StaysDown s events := by
  have hinit : Program.Holds (Recorded uid) (Awaits uid) s := by
    refine ⟨?_, ?_⟩
    · intro hdown
      rw [hup] at hdown
      cases hdown
    · rw [hidle]
      simp
  have hboth := hm.and_mem (p := fun event => ∀ request, event = .spawn request → request.args.uid = uid)
    (by
      intro event hevent request heq
      rw [heq] at hevent
      exact hown request hevent)
  refine runMeets_of_invariant (fun _ _ _ hi hc hs => teardownProgram_step hi hc hs) ?_ hinit hboth
  intro s event hi _
  cases event with
  | spawn request => trivial
  | outside event => trivial
  | advance i oracle =>
    intro task htask op hop hdown
    have hinert := (hi.2 task (List.mem_of_getElem? htask)).inert (.inl hdown)
    obtain ⟨stamp, script⟩ := task
    cases script with
    | pure a => cases hop
    | call op' next =>
      cases hop
      exact hinert.1

def freshTenant : TeardownState := ⟨⟨{}, 0⟩, []⟩

def agentTenant : HandlerArgs where
  spec := { accountId := "a", username := "u" }
  uid := "1"
  defaults := some { cpuM := 1000, memoryMb := 1024, storageGb := 1, terminalResourcePercent := 20 }

def Alone (s : TeardownState) : TeardownEvent → Prop
  | .advance i _ => ∀ other ∈ s.procs.eraseIdx i, other.stamp = none ∨ nextOp other = none
  | .spawn _ | .outside _ => True

instance (s : TeardownState) : (event : TeardownEvent) → Decidable (Alone s event)
  | .advance i _ => inferInstanceAs (Decidable (∀ other ∈ s.procs.eraseIdx i, _))
  | .spawn _ | .outside _ => .isTrue trivial

private theorem settled_of_alone {s : TeardownState} {event : TeardownEvent} (h : Alone s event) :
    Settled uid s event := by
  cases event with
  | spawn request => trivial
  | outside event => trivial
  | advance i oracle =>
    intro task _ _ j hj other hother hbegun
    rcases h other (List.mem_eraseIdx_iff_getElem?.mpr ⟨j, hj, hother⟩) with hnone | hended
    · exact absurd hnone hbegun
    · obtain ⟨stamp, script⟩ := other
      cases script with
      | pure a => trivial
      | call op next => cases hended

/-- A tenant is created and torn down while a wake waits, which then does nothing. -/
def tornDown : List TeardownEvent :=
  .spawn ⟨.ensure, agentTenant⟩ :: List.replicate 13 (.advance 0 {}) ++
    .spawn ⟨.onWake, agentTenant⟩ :: .spawn ⟨.purge, agentTenant⟩ :: List.replicate 5 (.advance 2 {}) ++
    [.advance 1 {}]

theorem staysDown_tornDown : (∃ s', run teardownProgram.step freshTenant tornDown = some s' ∧
      (s'.shared.state.deprovisioned && s'.procs.all fun task => decide (nextOp task = none)) = true) ∧
    RunMeets teardownProgram.step (Settled "1") freshTenant tornDown ∧
    RunMeets teardownProgram.step StaysDown freshTenant tornDown := by
  have hm : RunMeets teardownProgram.step (Settled "1") freshTenant tornDown :=
    RunMeets.mono (fun _ _ h => settled_of_alone h)
      (by decide : RunMeets teardownProgram.step Alone freshTenant tornDown)
  refine ⟨exists_run_of_map _ _ _ _ (by decide), hm, ?_⟩
  refine staysDown_of_settled rfl rfl ?_ hm
  intro request hmem
  simp only [tornDown, List.mem_cons, List.mem_append, List.mem_replicate, ProcessEvent.spawn.injEq] at hmem
  aesop

/-- `ensure` passes its check, the tenant is torn down, and `ensure` goes on. -/
def overtakenEnsure : List TeardownEvent :=
  .spawn ⟨.ensure, agentTenant⟩ :: .spawn ⟨.purge, agentTenant⟩ :: .advance 0 {} ::
    List.replicate 5 (.advance 1 {}) ++ List.replicate 4 (.advance 0 {})

theorem overtakenEnsure_not_staysDown : (∃ s', run teardownProgram.step freshTenant overtakenEnsure = some s' ∧
      (s'.shared.state.deprovisioned && s'.shared.state.volume) = true) ∧
    ¬ RunMeets teardownProgram.step StaysDown freshTenant overtakenEnsure :=
  ⟨exists_run_of_map _ _ _ _ (by decide), by decide⟩

end PrivaCloud.Operator
