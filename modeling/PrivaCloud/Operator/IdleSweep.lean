import PrivaCloud.Operator.Cluster
import PrivaCloud.Operator.Convergence
import PrivaCloud.Operator.RunnerWrites

/-!
# The idle sweep

The handlers of the Runner run beside each other, and its pod may be replaced between any two of their calls. A
handler is given the status as it was, and what it assigns to `patch.status` is written after its last call.
-/

namespace PrivaCloud.Operator

open Framework Kube RunnerScript RunnerWrites

structure Pod where
  name : Nat
  ip : String
  deriving DecidableEq

/-- The Deployments, the status and the pod of the Runner that is Ready and not terminating -/
structure RunnerCluster where
  deployments : Deployments := {}
  status : RunnerStatus := {}
  pod : Option Pod := none
  now : Int := 0
  /-- the address that a handler recorded last, and the start that the first handler gave it that recorded it since
  another one -/
  recorded : Option (String × Int) := none

namespace RunnerCluster

/-- A look finds the Ready pod or none; the health is whatever answers at the address. -/
def exec (s : RunnerCluster) (op : RunnerOp) (o : Oracle) : RunnerCluster × Option op.Reply :=
  match op with
  | .kube (.readyPod .runner) =>
    (s, if o.raised then none else some (s.pod.bind fun pod => if o.podIp = some pod.ip then some pod.ip else none))
  | .kube .clock => (s, some s.now)
  | .kube op =>
    let done := s.deployments.exec op o
    ({ s with deployments := done.1 }, done.2)
  | .setCrStatus phase =>
    if o.raised then (s, none) else ({ s with status := (StatusPatch.gone phase).apply s.status }, some ())
  | .patch _ _ => (s, some ())

def record (s : RunnerCluster) (fields : StatusPatch) : Option (String × Int) :=
  match fields.podIp with
  | some (some ip) =>
    if s.recorded.map Prod.fst = some ip then s.recorded else some (ip, fields.startedAt.getD s.now)
  | _ => s.recorded

def patched (s : RunnerCluster) (fields : StatusPatch) : RunnerCluster :=
  { s with status := fields.apply s.status, recorded := s.record fields }

end RunnerCluster

/-- What a handler has seen -/
structure Sighting where
  /-- the address that the last look has found -/
  looked : Option String := none
  /-- the pod that was Ready at that look -/
  ready : Option Pod := none
  applied : Option String := none
  clock : Option Int := none
  /-- the last health, and the address that has answered -/
  answer : Option (String × Health) := none
  /-- the status has been made not routable -/
  cleared : Bool := false

namespace Sighting

def look (k : Sighting) (pod : Option Pod) (reply : Option (Option String)) : Sighting :=
  match reply with
  | some (some ip) => { k with looked := some ip, ready := pod }
  | _ => k

def read (k : Sighting) (reply : Option (Option Deployment)) : Sighting :=
  { k with applied := reply.join.map fun d => d.template.generation }

def hear (k : Sighting) (ip : String) (reply : Option (Option Health)) : Sighting :=
  { k with answer := reply.join.map fun h => (ip, h) }

/-- The Runner is idle, and its start long enough ago. -/
def Idle (k : Sighting) (args : HandlerArgs) (defaults : RunnerDefaults) (h : Health) : Prop :=
  ∃ started ∈ args.status.startedAt, ∃ now ∈ k.clock, resolveMinAlive args.spec defaults ≤ now - started ∧
    resolveIdleGrace args.spec defaults < now - h.lastActivity

def Stale (k : Sighting) (args : HandlerArgs) (defaults : RunnerDefaults) : Prop :=
  ∃ a ∈ resolveAllocation args.spec args.settings defaults, k.applied ≠ some a.hash

/-- The address that the look has found is that of the status that the handler was given, and its health has no run;
the Runner is idle, or a persistent one with a stale allocation. -/
structure Quiet (k : Sighting) (args : HandlerArgs) (defaults : RunnerDefaults) (ip : String) (h : Health) : Prop where
  looked : k.looked = some ip
  known : args.status.podIp = some ip
  answer : k.answer = some (ip, h)
  active : h.active = 0
  reason : if args.persistent then k.Stale args defaults else k.Idle args defaults h

/-- What a scale-down rests on -/
structure Justified (k : Sighting) (args : HandlerArgs) : Prop where
  cleared : k.cleared = true
  quiet : args.spec.desiredState = "active" → ∃ defaults ∈ args.defaults, ∃ ip h, k.Quiet args defaults ip h

end Sighting

/-- A start is written only as it is stamped; an address that is written without one is that of the status that the
handler was given. -/
structure StatusPatch.Recorded (written : StatusPatch) (stamped : Option Int) (args : HandlerArgs) : Prop where
  started : written.startedAt = stamped
  named : ∀ ip, written.podIp = some (some ip) → stamped ≠ none ∨ args.status.podIp = some ip

/-- What a handler has seen, and what it is going to write -/
structure Progress where
  seen : Sighting := {}
  /-- the Runner has been scaled to zero -/
  scaled : Bool := false
  /-- the last `time.time()` that was assigned to `startedAt` -/
  stamped : Option Int := none
  written : StatusPatch := {}

namespace Progress

def assign (k : Progress) (fields : StatusPatch) (now : Option Int) : Progress :=
  { k with
    stamped := now.or k.stamped
    written := (k.written.update fields).update { startedAt := now } }

def after (k : Progress) (pod : Option Pod) (now : Int) : (op : RunnerOp) → Option op.Reply → Progress
  | .kube (.readyPod .runner), reply => { k with seen := k.seen.look pod reply }
  | .kube (.read .runner), reply => { k with seen := k.seen.read reply }
  | .kube .clock, reply => { k with seen := { k.seen with clock := reply } }
  | .kube (.health .runner ip), reply => { k with seen := k.seen.hear ip reply }
  | .kube (.scale .runner 0), _ => { k with scaled := true }
  | .kube _, _ => k
  | .setCrStatus _, _ => { k with seen := { k.seen with cleared := true } }
  | .patch fields stamped, _ => k.assign fields (if stamped then some now else none)

/-- What is kept at every call -/
structure Sound (k : Progress) (args : HandlerArgs) : Prop where
  justified : k.scaled = true → k.seen.Justified args
  recorded : args.persistent = false → k.written.Recorded k.stamped args

end Progress

/-- What the environment shows a handler at a call -/
structure RunnerView where
  pod : Option Pod
  now : Int
  reply : (op : RunnerOp) → Option op.Reply

def Progress.exec (k : Progress) (op : RunnerOp) (v : RunnerView) : Progress × Option op.Reply :=
  (k.after v.pod v.now op (v.reply op), v.reply op)

abbrev Sweeps {α : Type} (args : HandlerArgs) (post : α → Progress → Prop) (x : RunnerScript α) (k : Progress) : Prop :=
  Script.Safe Progress.exec (fun _ _ => True) (fun k => k.Sound args) post x k

/-- The Runner has not been scaled to zero yet. -/
structure Progress.Open (k : Progress) (args : HandlerArgs) : Prop where
  scaled : k.scaled = false
  recorded : args.persistent = false → k.written.Recorded k.stamped args

private theorem Progress.Open.sound {k : Progress} {args : HandlerArgs} (h : k.Open args) : k.Sound args where
  justified := by
    rw [h.scaled]
    rintro ⟨⟩
  recorded := h.recorded

section Scripts

variable {α β : Type} {args : HandlerArgs} {k : Progress}

variable {post : α → Progress → Prop}

private theorem Sweeps.pure {a : α} (h : post a k) : Sweeps args post (Pure.pure a) k := h

private theorem Sweeps.bind {post : β → Progress → Prop} {x : RunnerScript α} {f : α → RunnerScript β}
    (h : Sweeps args (fun a k' => Sweeps args post (f a) k') x k) : Sweeps args post (x >>= f) k := Script.Safe.bind h

private theorem Sweeps.mono {post' : α → Progress → Prop} {x : RunnerScript α} (h : Sweeps args post x k)
    (hpost : ∀ a k, post a k → post' a k) : Sweeps args post' x k := Script.Safe.mono hpost h

private theorem Sweeps.perform {op : RunnerOp} {post : op.Reply → Progress → Prop}
    (h : ∀ pod now reply, (k.after pod now op reply).Sound args ∧
      ∀ answer, reply = some answer → post answer (k.after pod now op reply)) :
    Sweeps args post (Script.perform op) k := by
  intro _ v
  obtain ⟨hsound, hpost⟩ := h v.pod v.now (v.reply op)
  exact ⟨hsound, hpost⟩

/-- Calls that are not looked at here -/
def Aside : OperatorOp → Prop
  | .scale .runner 0 => False
  | _ => True

theorem after_aside {op : OperatorOp} (hop : Aside op) (pod : Option Pod) (now : Int) (reply : Option op.Reply) :
    (k.after pod now (.kube op) reply).scaled = k.scaled ∧ (k.after pod now (.kube op) reply).written = k.written ∧
      (k.after pod now (.kube op) reply).stamped = k.stamped := by
  cases op with
  | readyPod c => cases c <;> exact ⟨rfl, rfl, rfl⟩
  | read c => cases c <;> exact ⟨rfl, rfl, rfl⟩
  | health c ip => cases c <;> exact ⟨rfl, rfl, rfl⟩
  | scale c replicas =>
    cases c with
    | terminal => exact ⟨rfl, rfl, rfl⟩
    | runner =>
      cases replicas with
      | zero => exact hop.elim
      | succ n => exact ⟨rfl, rfl, rfl⟩
  | _ => exact ⟨rfl, rfl, rfl⟩

private theorem Progress.Open.aside (h : k.Open args) (op : OperatorOp) (hop : Aside op) (pod : Option Pod) (now : Int)
    (reply : Option op.Reply) : (k.after pod now (.kube op) reply).Open args := by
  obtain ⟨hscaled, hwritten, hstamped⟩ := after_aside (k := k) hop pod now reply
  refine ⟨hscaled.trans h.scaled, fun hauto => ?_⟩
  rw [hwritten, hstamped]
  exact h.recorded hauto

variable {x : OperatorScript α}

private theorem Sweeps.lift (h : k.Open args) (hx : x.Within Aside fun _ _ => True) :
    Sweeps args (fun _ k' => k'.Open args) (lift x) k := by
  induction x generalizing k with
  | pure a => exact h
  | call op next ih =>
    intro _ v
    have hopen := h.aside op hx.1 v.pod v.now (v.reply (.kube op))
    exact ⟨hopen.sound, fun reply _ => ih reply hopen (hx.2 reply trivial)⟩

/-- What may be assigned: a start only with its stamp, and an address without one only as it was given -/
def Assignable (args : HandlerArgs) (fields : StatusPatch) (stamped : Bool) : Prop :=
  args.persistent = false → fields.startedAt = none ∧
    ∀ ip, fields.podIp = some (some ip) → stamped = true ∨ args.status.podIp = some ip

private theorem assignable_gone (phase : RunnerPhase) (stamped : Bool) : Assignable args (.gone phase) stamped := by
  refine fun _ => ⟨rfl, ?_⟩
  rintro ip ⟨⟩

private theorem assignable_phase (phase : RunnerPhase) (readyReplicas : Option Nat) :
    Assignable args { phase := some phase, readyReplicas := readyReplicas } false := by
  refine fun _ => ⟨rfl, ?_⟩
  rintro ip ⟨⟩

variable {fields : StatusPatch}

private theorem assignable_stamped (h : fields.startedAt = none) : Assignable args fields true :=
  fun _ => ⟨h, fun _ _ => Or.inl rfl⟩

variable {stamped : Bool}

private theorem StatusPatch.Recorded.assign (h : k.written.Recorded k.stamped args)
    (now : Int) (hstarted : fields.startedAt = none)
    (hnamed : ∀ ip, fields.podIp = some (some ip) → stamped = true ∨ args.status.podIp = some ip) :
    (k.assign fields (if stamped then some now else none)).written.Recorded
      (k.assign fields (if stamped then some now else none)).stamped args where
  started := by
    simp only [Progress.assign, StatusPatch.update, hstarted, h.started, Option.none_or]
  named := by
    intro ip hip
    simp only [Progress.assign, StatusPatch.update, Option.none_or] at hip ⊢
    cases stamped with
    | true => exact Or.inl (by simp)
    | false =>
      rcases Option.or_eq_some_iff.mp hip with hnew | ⟨-, hold⟩
      · exact Or.inr ((hnamed ip hnew).resolve_left (by simp))
      · simpa using h.named ip hold

private theorem Progress.Sound.assign (h : k.Sound args) (now : Int)
    (hfields : Assignable args fields stamped) :
    (k.assign fields (if stamped then some now else none)).Sound args where
  justified := h.justified
  recorded := fun hauto => (h.recorded hauto).assign now (hfields hauto).1 (hfields hauto).2

private theorem Sweeps.patched (h : k.Sound args)
    (hfields : Assignable args fields stamped) :
    Sweeps args (fun _ k' => k'.Sound args ∧ (k.Open args → k'.Open args))
      (Script.perform (RunnerOp.patch fields stamped)) k := by
  refine Sweeps.perform fun pod now reply => ?_
  have hsound := h.assign now hfields
  exact ⟨hsound, fun _ _ => ⟨hsound, fun hopen => ⟨hopen.scaled, hsound.recorded⟩⟩⟩

private theorem Sweeps.patch (h : k.Sound args) (hfields : Assignable args fields false) :
    Sweeps args (fun _ _ => True) (RunnerScript.patch fields) k := (Sweeps.patched h hfields).mono fun _ _ _ => trivial

private theorem Sweeps.stamp (h : k.Sound args) (hfields : fields.startedAt = none) :
    Sweeps args (fun _ _ => True) (RunnerScript.stamp fields) k :=
  (Sweeps.patched h (assignable_stamped hfields)).mono fun _ _ _ => trivial

private theorem Sweeps.takeDown (h : k.Open args) {phase : RunnerPhase} (replicas : Int)
    (hreason : { k.seen with cleared := true }.Justified args) :
    Sweeps args (fun _ k' => k'.Sound args) (RunnerWrites.takeDown phase replicas) k := by
  unfold RunnerWrites.takeDown
  split
  · refine Sweeps.bind (Sweeps.perform fun pod now reply => ?_)
    have hopen : (k.after pod now (.setCrStatus phase) reply).Open args := ⟨h.scaled, h.recorded⟩
    refine ⟨hopen.sound, fun _ _ => Sweeps.perform fun pod now reply => ?_⟩
    have hsound : ((k.after pod now (.setCrStatus phase) none).after pod now
        (.kube (.scale .runner 0)) reply).Sound args := ⟨fun _ => hreason, h.recorded⟩
    exact ⟨hsound, fun _ _ => hsound⟩
  · exact Sweeps.pure h.sound

private theorem aside_converges (h : Converges x) : x.Within Aside fun _ _ => True := by
  refine h.mono ?_
  intro op hop
  cases op <;> trivial

private theorem Sweeps.after_lift (h : k.Open args) {post : β → Progress → Prop} {f : α → RunnerScript β}
    (hx : x.Within Aside fun _ _ => True) (hf : ∀ a k', k'.Open args → Sweeps args post (f a) k') :
    Sweeps args post (RunnerScript.lift x >>= f) k :=
  Sweeps.bind ((Sweeps.lift h hx).mono hf)

private theorem aside_ensureTerminal (defaults : RunnerDefaults) :
    (Reconcile.ensureTerminal args defaults).Within Aside fun _ _ => True := by
  unfold Reconcile.ensureTerminal
  split
  · apply Script.Within.bind (aside_converges (converges_ensureTerminalObjects args defaults))
    intro _
    exact aside_converges (Script.Within.bind (converges_getReplicas _) fun _ => trivial)
  · apply Script.Within.bind (aside_converges (converges_getReplicas _))
    intro replicas
    unfold Reconcile.scaleDown
    split
    · exact ⟨trivial, fun _ _ => trivial⟩
    · trivial

private theorem aside_reconcileQuota (defaults : RunnerDefaults) :
    (Reconcile.reconcileQuota args defaults).Within Aside fun _ _ => True := by
  refine Script.Within.bind (x := clock) ⟨trivial, fun _ _ => trivial⟩ fun now => ?_
  split
  · exact ⟨trivial, fun _ _ => trivial⟩
  · trivial

private theorem sweeps_takeDownTerminal (h : k.Sound args) (replicas : Int) :
    Sweeps args (fun _ k' => k'.Sound args) (RunnerScript.lift (Reconcile.takeDown .terminal replicas)) k := by
  unfold Reconcile.takeDown
  split
  · exact fun _ _ => ⟨h, fun _ _ _ _ => ⟨h, fun _ _ => h⟩⟩
  · exact h

private theorem sweeps_patchInactive {post : Bool → Progress → Prop} (h : k.Sound args) (hpost : ∀ k, post true k) :
    Sweeps args post (do patchInactive args; Pure.pure true) k := by
  unfold patchInactive
  dsimp only
  split
  · exact Sweeps.bind ((Sweeps.patch h (assignable_gone _ _)).mono fun _ k _ => hpost k)
  · exact hpost k

private theorem sweeps_quiesceIfInactive (h : k.Open args) : Sweeps args
    (fun quiesced k' => quiesced = false → args.spec.desiredState = "active" ∧ k'.Open args)
    (quiesceIfInactive args) k := by
  unfold quiesceIfInactive
  split
  · rename_i hactive
    exact fun _ => ⟨hactive, h⟩
  · rename_i hinactive
    refine Sweeps.after_lift h (aside_converges (converges_getReplicas _)) fun replicas k h => ?_
    refine Sweeps.after_lift h (aside_converges (converges_getReplicas _)) fun terminalReplicas k h => ?_
    refine Sweeps.bind ((Sweeps.takeDown h replicas ⟨rfl, fun hactive => absurd hactive hinactive⟩).mono ?_)
    intro _ k h
    refine Sweeps.bind ((sweeps_takeDownTerminal h terminalReplicas).mono fun _ k h => ?_)
    exact sweeps_patchInactive h fun _ hfalse => by cases hfalse

abbrev Ends (args : HandlerArgs) (x : RunnerScript Unit) (k : Progress) : Prop := Sweeps args (fun _ _ => True) x k

private theorem ends_pure : Ends args (Pure.pure ()) k := trivial

private theorem ends_admitted (h : k.Open args) {body : RunnerScript Unit}
    (hbody : ∀ k', k'.Open args → args.spec.desiredState = "active" → Ends args body k') :
    Ends args (admitted args body) k := by
  refine Sweeps.after_lift h ⟨trivial, fun _ _ => trivial⟩ fun started k h => ?_
  split
  · exact ends_pure
  · refine Sweeps.bind ((sweeps_quiesceIfInactive h).mono fun quiesced k h => ?_)
    cases quiesced with
    | true => exact ends_pure
    | false =>
      obtain ⟨hactive, hopen⟩ := h rfl
      simp only [Bool.false_eq_true, if_false]
      split
      · exact hbody k hopen hactive
      · exact ends_pure

private theorem ends_withDefaults {body : RunnerDefaults → RunnerScript Unit}
    (hbody : ∀ defaults ∈ args.defaults, Ends args (body defaults) k) : Ends args (withDefaults args body) k := by
  unfold RunnerWrites.withDefaults
  split
  · exact ends_pure
  · rename_i defaults hdefaults
    exact hbody defaults hdefaults

private theorem ends_scaleUpRunner (h : k.Open args) {after : RunnerScript Unit}
    (hafter : ∀ k', k'.Open args → Ends args after k') : Ends args (scaleUpRunner after) k := by
  refine Sweeps.after_lift h (aside_converges (converges_getReplicas _)) fun replicas k h => ?_
  split
  · exact Sweeps.patch h.sound (assignable_gone _ _)
  · exact Sweeps.after_lift h ⟨trivial, fun _ _ => trivial⟩ fun _ k h => hafter k h

variable {ip : String}

private theorem assignable_running (h : stamped = true ∨ args.status.podIp = some ip) :
    Assignable args (.running ip) stamped := by
  refine fun _ => ⟨rfl, ?_⟩
  rintro _ ⟨⟩
  exact h

private theorem ends_ensurePersistent (h : k.Open args) : Ends args (ensurePersistent args) k := by
  have hready (hpersistent : args.persistent = true) (k : Progress) (h : k.Open args) :
      Ends args (ensurePersistent.awaitReady args) k := by
    refine Sweeps.after_lift h ⟨trivial, fun _ _ => trivial⟩ fun ip k h => ?_
    split
    · exact Sweeps.patch h.sound (assignable_phase _ _)
    · split
      · exact Sweeps.stamp h.sound rfl
      · exact Sweeps.stamp h.sound rfl
      · refine Sweeps.patch h.sound fun hauto => ?_
        rw [hauto] at hpersistent
        cases hpersistent
  refine Sweeps.after_lift h (aside_converges (converges_getReplicas _)) fun replicas k h => ?_
  split
  · rename_i hpersistent
    split
    · exact Sweeps.patch h.sound (assignable_gone _ _)
    · split
      · exact Sweeps.after_lift h ⟨trivial, fun _ _ => trivial⟩ fun _ k h => hready hpersistent.1 k h
      · exact hready hpersistent.1 k h
  · split
    · exact Sweeps.patch h.sound (assignable_phase _ _)
    · exact ends_pure

private theorem ends_ensure (h : k.Open args) : Ends args (ensure args) k := by
  refine ends_admitted h fun k h _ => ends_withDefaults fun defaults _ => ?_
  refine Sweeps.after_lift h (aside_converges (converges_desired _)) fun _ k h => ?_
  refine Sweeps.after_lift h ⟨trivial, fun _ _ => trivial⟩ fun _ k h => ?_
  refine Sweeps.after_lift h (aside_converges (converges_ensureRuntimeObjects args defaults)) fun _ k h => ?_
  exact Sweeps.after_lift h (aside_ensureTerminal defaults) fun _ k h => ends_ensurePersistent h

private theorem ends_resolveWake (h : k.Open args) : Ends args (resolveWake args) k := by
  refine Sweeps.after_lift h ⟨trivial, fun _ _ => trivial⟩ fun ip k h => ?_
  split
  · exact Sweeps.patch h.sound (assignable_phase _ _)
  · split
    · exact Sweeps.stamp h.sound rfl
    · rename_i hsame
      exact Sweeps.patch h.sound (assignable_running (Or.inr (not_not.mp hsame).symm))

private theorem ends_awaitWoken (h : k.Open args) : Ends args awaitWoken k := by
  refine Sweeps.bind ((Sweeps.patched h.sound (assignable_phase _ _)).mono fun _ k h' => ?_)
  refine Sweeps.after_lift (h'.2 h) ⟨trivial, fun _ _ => trivial⟩ fun ip k h => ?_
  split
  · exact Sweeps.patch h.sound (assignable_phase _ _)
  · exact Sweeps.stamp h.sound rfl

private theorem ends_onWake (h : k.Open args) : Ends args (onWake args) k := by
  refine ends_admitted h fun k h _ => ?_
  refine Sweeps.after_lift h (aside_converges (converges_getReplicas _)) fun replicas k h => ?_
  split
  · exact ends_resolveWake h
  · refine ends_withDefaults fun defaults _ => ?_
    refine Sweeps.after_lift h (aside_converges (converges_ensureRuntimeObjects args defaults)) fun _ k h => ?_
    exact ends_scaleUpRunner h fun k h => ends_awaitWoken h

private theorem ends_restoreRunner (h : k.Open args) (defaults : RunnerDefaults) (a : Allocation) :
    Ends args (restoreRunner args defaults a) k := by
  have hup (k : Progress) (h : k.Open args) : Ends args (scaleUpRunner (stamp (.gone .waking))) k :=
    ends_scaleUpRunner h fun k h => Sweeps.stamp h.sound rfl
  refine Sweeps.after_lift h ⟨trivial, fun _ _ => trivial⟩ fun started k h => ?_
  split
  · exact ends_pure
  · refine Sweeps.after_lift h (aside_converges converges_appliedAllocationHash) fun applied k h => ?_
    split
    · refine Sweeps.after_lift h (aside_converges (converges_ensureRuntimeObjects args defaults)) fun _ k h => ?_
      split
      · exact hup k h
      · exact ends_pure
    · split
      · exact hup k h
      · exact ends_pure

private theorem ends_sleepRunner (h : k.Open args) {phase : RunnerPhase}
    (hreason : { k.seen with cleared := true }.Justified args) : Ends args (sleepRunner phase) k :=
  Sweeps.bind ((Sweeps.takeDown h 1 hreason).mono fun _ _ h => Sweeps.patch h (assignable_gone _ _))

private theorem Sweeps.look (h : k.Open args) {f : Option String → RunnerScript α}
    (hnone : ∀ k', k'.Open args → Sweeps args post (f none) k')
    (hsome : ∀ ip k', k'.Open args → k'.seen.looked = some ip → Sweeps args post (f (some ip)) k') :
    Sweeps args post (RunnerScript.lift (readyPodIp .runner) >>= f) k := by
  intro _ v
  have hopen := h.aside (.readyPod .runner) trivial v.pod v.now (v.reply (.kube (.readyPod .runner)))
  refine ⟨hopen.sound, fun reply hreply => ?_⟩
  cases reply with
  | none => exact hnone _ hopen
  | some ip =>
    have hanswer : v.reply (.kube (.readyPod .runner)) = some (some ip) := hreply
    refine hsome ip _ hopen ?_
    simp only [Progress.exec, Progress.after]
    rw [hanswer]
    rfl

private theorem Sweeps.applied (h : k.Open args) {f : Option String → RunnerScript α}
    (hf : ∀ applied k', k'.Open args → k'.seen.looked = k.seen.looked → k'.seen.applied = applied →
      Sweeps args post (f applied) k') :
    Sweeps args post (RunnerScript.lift appliedAllocationHash >>= f) k := by
  intro _ v
  have hopen := h.aside (.read .runner) trivial v.pod v.now (v.reply (.kube (.read .runner)))
  refine ⟨hopen.sound, fun reply hreply => hf _ _ hopen rfl ?_⟩
  have hanswer : v.reply (.kube (.read .runner)) = some reply := hreply
  simp only [Progress.exec, Progress.after]
  rw [hanswer]
  rfl

private theorem Sweeps.clock (h : k.Open args) {f : Int → RunnerScript α}
    (hf : ∀ now k', k'.Open args → k'.seen.looked = k.seen.looked → k'.seen.clock = some now →
      Sweeps args post (f now) k') :
    Sweeps args post (RunnerScript.lift clock >>= f) k := by
  intro _ v
  have hopen := h.aside .clock trivial v.pod v.now (v.reply (.kube .clock))
  exact ⟨hopen.sound, fun reply hreply => hf reply _ hopen rfl hreply⟩

private theorem Sweeps.probe (h : k.Open args) {f : Option Health → RunnerScript α}
    (hnone : ∀ k', k'.Open args → Sweeps args post (f none) k')
    (hsome : ∀ health k', k'.Open args → k'.seen = { k.seen with answer := some (ip, health) } →
      Sweeps args post (f (some health)) k') :
    Sweeps args post (RunnerScript.lift (probe .runner ip) >>= f) k := by
  intro _ v
  have hopen := h.aside (.health .runner ip) trivial v.pod v.now (v.reply (.kube (.health .runner ip)))
  refine ⟨hopen.sound, fun reply hreply => ?_⟩
  cases reply with
  | none => exact hnone _ hopen
  | some health =>
    have hanswer : v.reply (.kube (.health .runner ip)) = some (some health) := hreply
    refine hsome health _ hopen ?_
    simp only [Progress.exec, Progress.after]
    rw [hanswer]
    rfl

variable {defaults : RunnerDefaults}

private theorem ends_replaceStale (h : k.Open args) (hdefaults : defaults ∈ args.defaults)
    {a : Allocation} (ha : a ∈ resolveAllocation args.spec args.settings defaults) (hpersistent : args.persistent = true)
    (hlooked : k.seen.looked = some ip) (hknown : args.status.podIp = some ip) :
    Ends args (replaceStale a k.seen.applied ip) k := by
  unfold replaceStale
  split
  · rename_i hstale
    refine Sweeps.probe h (fun _ _ => ends_pure) fun health k' h' hseen => ?_
    dsimp only
    split
    · rename_i hactive
      refine ends_sleepRunner h' ⟨rfl, fun _ => ⟨defaults, hdefaults, ip, health, ?_⟩⟩
      rw [hseen]
      refine ⟨hlooked, hknown, rfl, hactive, ?_⟩
      rw [if_pos hpersistent]
      exact ⟨a, ha, hstale⟩
    · exact ends_pure
  · exact ends_pure

private theorem ends_sweepIdle (h : k.Open args) (hdefaults : defaults ∈ args.defaults)
    (hauto : args.persistent = false) (hlooked : k.seen.looked = some ip)
    (hknown : args.status.podIp = some ip) : Ends args (sweepIdle args defaults ip) k := by
  unfold sweepIdle
  split
  · exact ends_pure
  · exact ends_pure
  · rename_i started _ hstarted
    refine Sweeps.clock h fun now k h hsame hclock => ?_
    split
    · exact ends_pure
    · rename_i halive
      refine Sweeps.probe h (fun _ _ => ends_pure) fun health k' h' hseen => ?_
      dsimp only
      split
      · rename_i hidle
        refine ends_sleepRunner h' ⟨rfl, fun _ => ⟨defaults, hdefaults, ip, health, ?_⟩⟩
        rw [hseen]
        refine ⟨hsame.trans hlooked, hknown, rfl, hidle.1, ?_⟩
        rw [if_neg (by simp [hauto])]
        exact ⟨started, hstarted, now, hclock, Int.not_lt.mp halive, hidle.2⟩
      · exact ends_pure

private theorem ends_sweepRunner (h : k.Open args) (hdefaults : defaults ∈ args.defaults)
    {a : Allocation} (ha : a ∈ resolveAllocation args.spec args.settings defaults) :
    Ends args (sweepRunner args defaults a) k := by
  refine Sweeps.look h (fun k h => Sweeps.patch h.sound (assignable_gone _ _)) fun ip k h hlooked => ?_
  dsimp only
  split
  · exact Sweeps.stamp h.sound rfl
  · rename_i hknown
    refine Sweeps.applied h fun applied k' h' hsame happlied => ?_
    have hlooked' := hsame.trans hlooked
    split
    · rename_i hpersistent
      rw [← happlied]
      exact ends_replaceStale h' hdefaults ha hpersistent hlooked' (not_not.mp hknown).symm
    · rename_i hauto
      exact ends_sweepIdle h' hdefaults (Bool.not_eq_true _ ▸ hauto) hlooked' (not_not.mp hknown).symm

private theorem ends_reconcileRuntime (h : k.Open args) : Ends args (reconcileRuntime args) k := by
  refine ends_admitted h fun k h _ => ?_
  refine Sweeps.after_lift h (aside_converges (converges_getReplicas _)) fun replicas k h => ?_
  refine ends_withDefaults fun defaults hdefaults => ?_
  cases hallocation : resolveAllocation args.spec args.settings defaults with
  | none =>
    -- the error of an allocation that can not be split
    exact fun _ _ => ⟨h.sound, fun never => nomatch never⟩
  | some a =>
    have hrest (k : Progress) (h : k.Open args) : Ends args (if replicas ≤ 0 then restoreRunner args defaults a
        else if replicas = 1 then sweepRunner args defaults a else Pure.pure ()) k := by
      split
      · exact ends_restoreRunner h defaults a
      · split
        · exact ends_sweepRunner h hdefaults hallocation
        · exact ends_pure
    refine Sweeps.after_lift (x := renderManagedPolicy) h ⟨trivial, fun _ _ => trivial⟩ fun _ k h => ?_
    exact Sweeps.after_lift h (aside_reconcileQuota defaults) fun _ k h => hrest k h

end Scripts

inductive RunnerHandler
  | ensure
  | onWake
  | reconcileRuntime

structure RunnerRequest where
  name : RunnerHandler
  args : HandlerArgs

def RunnerRequest.script (request : RunnerRequest) : RunnerScript Unit :=
  match request.name with
  | .ensure => ensure request.args
  | .onWake => onWake request.args
  | .reconcileRuntime => reconcileRuntime request.args

/-- A handler that runs; when its calls are over, its patch is still to be written. -/
structure RunnerTask where
  args : HandlerArgs
  script : RunnerScript Unit
  progress : Progress := {}
  finished : Bool := false

/-- The pod is replaced, or time goes by. -/
inductive RunnerChange
  | pod (pod : Option Pod)
  | later (seconds : Nat)

namespace RunnerTask

/-- One call, or the patch; it is lost with a handler that ends there. -/
def act (s : RunnerCluster) (p : RunnerTask) (o : Oracle) : Option (RunnerCluster × RunnerTask) :=
  match p.script with
  | .pure _ =>
    if p.finished then none
    else some (if o.raised then s else s.patched p.progress.written, { p with finished := true })
  | .call op next =>
    let done := s.exec op o
    let rest := match done.2 with
      | some reply => next reply
      | none => .pure ()
    some (done.1, { p with script := rest, progress := p.progress.after s.pod s.now op done.2 })

def scalesDown (p : RunnerTask) : Bool :=
  match p.script with
  | .call (.kube (.scale .runner 0)) _ => true
  | _ => false

end RunnerTask

def runnerProgram : Program RunnerCluster RunnerTask RunnerRequest Oracle RunnerChange where
  enter := fun request => { args := request.args, script := request.script }
  act := RunnerTask.act
  outside := fun s change => some <|
    match change with
    | .pod pod => { s with pod := pod }
    | .later seconds => { s with now := s.now + seconds }

abbrev RunnerSystem : Type := Processes RunnerCluster RunnerTask

abbrev RunnerEvent : Type := ProcessEvent RunnerRequest Oracle RunnerChange

def Sighting.Real (k : Sighting) : Prop := ∀ ip ∈ k.looked, ∃ pod ∈ k.ready, pod.ip = ip

structure RunnerTask.Knows (p : RunnerTask) : Prop where
  script : Ends p.args p.script p.progress
  ended : p.finished = true → p.script = .pure ()
  sound : p.progress.Sound p.args
  real : p.progress.seen.Real

section Runs

variable {s s' : RunnerSystem} {cluster : RunnerCluster} {p : RunnerTask} {o : Oracle}
  {next : RunnerCluster × RunnerTask}

private theorem knows_enter (request : RunnerRequest) : (runnerProgram.enter request).Knows := by
  have hopen : ({} : Progress).Open request.args := by
    refine ⟨rfl, fun _ => ⟨rfl, ?_⟩⟩
    rintro ip ⟨⟩
  refine ⟨?_, by rintro ⟨⟩, hopen.sound, by rintro _ ⟨⟩⟩
  obtain ⟨name, args⟩ := request
  cases name with
  | ensure => exact ends_ensure hopen
  | onWake => exact ends_onWake hopen
  | reconcileRuntime => exact ends_reconcileRuntime hopen

private theorem Sighting.Real.look {k : Sighting} (h : k.Real) (pod : Option Pod) {reply : Option (Option String)}
    (hreply : ∀ ip, reply = some (some ip) → ∃ found ∈ pod, found.ip = ip) : (k.look pod reply).Real := by
  unfold Sighting.look
  split
  · rename_i ip
    rintro _ ⟨⟩
    exact hreply ip rfl
  · exact h

private theorem real_after (h : p.progress.seen.Real) (op : RunnerOp) :
    (p.progress.after cluster.pod cluster.now op (cluster.exec op o).2).seen.Real := by
  cases op with
  | setCrStatus phase => exact h
  | patch fields stamped => exact h
  | kube op =>
    cases op with
    | readyPod c =>
      cases c with
      | terminal => exact h
      | runner =>
        refine h.look cluster.pod fun ip hip => ?_
        simp only [RunnerCluster.exec] at hip
        split at hip
        · cases hip
        · obtain ⟨pod, hpod, hfound⟩ := Option.bind_eq_some_iff.mp (Option.some.inj hip)
          exact ⟨pod, hpod, Option.some.inj (Option.ite_none_right_eq_some.mp hfound).2⟩
    | read c => cases c <;> exact h
    | health c ip => cases c <;> exact h
    | scale c replicas =>
      cases c with
      | terminal => exact h
      | runner => cases replicas <;> exact h
    | _ => exact h

private theorem RunnerTask.Knows.act (h : p.Knows) (hact : p.act cluster o = some next) : next.2.Knows := by
  cases hscript : p.script with
  | pure a =>
    simp only [RunnerTask.act, hscript] at hact
    split at hact <;> cases hact
    exact ⟨trivial, fun _ => rfl, h.sound, h.real⟩
  | call op rest =>
    simp only [RunnerTask.act, hscript] at hact
    cases hact
    have hscript' := h.script
    rw [hscript] at hscript'
    obtain ⟨hsound, hrest⟩ := hscript' trivial ⟨cluster.pod, cluster.now, fun op => (cluster.exec op o).2⟩
    have hrunning : p.finished = true → False := by
      intro hfinished
      rw [h.ended hfinished] at hscript
      cases hscript
    refine ⟨?_, fun hfinished => (hrunning hfinished).elim, hsound, real_after h.real op⟩
    dsimp only
    cases hreply : (cluster.exec op o).2 with
    | none => trivial
    | some reply =>
      have hnext := hrest reply hreply
      simp only [Progress.exec, hreply] at hnext
      exact hnext

theorem RunnerTask.Knows.justified (h : p.Knows) (hscales : p.scalesDown = true) : p.progress.seen.Justified p.args := by
  have hscript := h.script
  unfold RunnerTask.scalesDown at hscales
  split at hscales
  · rename_i rest heq
    rw [heq] at hscript
    obtain ⟨hsound, -⟩ := hscript trivial ⟨none, 0, fun _ => none⟩
    exact hsound.justified rfl
  · cases hscales

theorem knows_step {event : RunnerEvent} (h : ∀ p ∈ s.procs, p.Knows) (hs : runnerProgram.step s event = some s') :
    ∀ p ∈ s'.procs, p.Knows := by
  have hholds : Program.Holds (fun _ => True) (fun _ p => RunnerTask.Knows p) s := ⟨trivial, h⟩
  refine (hholds.step (fun _ _ => True) event trivial ?_ ?_ ?_ hs).2
  · exact fun _ request _ _ => knows_enter request
  · intro s i o p next hi _ hp hact
    exact ⟨trivial, (hi.2 p (List.mem_of_getElem? hp)).act hact, fun _ _ _ _ hq => hq⟩
  · exact fun _ _ _ _ _ _ => ⟨trivial, fun _ _ hq => hq⟩

end Runs

end PrivaCloud.Operator
