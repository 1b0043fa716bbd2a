import PrivaCloud.Operator.Cluster
import PrivaCloud.Operator.Convergence
import PrivaCloud.Terminald.Server

/-!
# The drain of a Terminal

The sweep of the Terminal runs beside the sessions of its pod: it reads the health, asks for a drain
with the revision that it has read, and scales the Deployment to zero.
-/

namespace PrivaCloud.Operator

open Framework Terminald Kube Reconcile

/-- The reservations and the releases so far. -/
structure SessionHistory where
  reserved : Nat := 0
  released : Nat := 0
  deriving DecidableEq

def SessionHistory.changes (h : SessionHistory) : Nat := h.reserved + h.released

/-- The pod, the clock and the Deployments of a tenant. -/
structure TerminalPod where
  server : Server
  now : Nat
  deployments : Deployments
  /-- what the revision counts -/
  history : SessionHistory := {}

/-- What the environment decides about a call; a request to the pod may be lost, and so may the reply. -/
structure PodOracle extends Oracle where
  delivered : Bool := true
  replied : Bool := true

/-- A request that reaches the pod, or time that goes by. -/
inductive PodEvent
  | reserve (random : Option String) (unix : Int)
  | release (id : String) (unix : Int)
  | touch (unix : Int)
  | health
  | drain (method : String) (revision : List Char)
  | tick (nanoseconds : Nat)

namespace TerminalPod

def request (s : TerminalPod) : PodEvent → TerminalPod
  | .reserve random unix =>
    let done := s.server.reserve s.now random unix
    { s with
      server := done.1
      history := { s.history with reserved := s.history.reserved + done.2.isSome.toNat } }
  | .release id unix =>
    { s with
      server := s.server.release id unix
      history := { s.history with
        released := s.history.released + (decide (id ∈ s.server.sessions)).toNat } }
  | .touch unix => { s with server := s.server.touch unix }
  | .health => { s with server := (s.server.health s.now).1 }
  | .drain method revision => { s with server := (s.server.drain s.now method revision).1 }
  | .tick nanoseconds => { s with now := s.now + nanoseconds }

end TerminalPod

/-- `str(int(revision))` -/
def revisionText (revision : Int) : List Char :=
  if revision < 0 then '-' :: Nat.toDigits 10 revision.natAbs else Nat.toDigits 10 revision.toNat

def HealthReply.health (reply : HealthReply) : Health where
  active := reply.activeSessions
  lastActivity := reply.lastActivityTs
  sessionRevision := some reply.sessionRevision.toNat

/-- A `reconcile_terminal` that runs, what the pod had counted at its last health read, and the end of
the lease of its drain. -/
structure Sweep where
  script : OperatorScript Unit
  observed : Option SessionHistory := none
  lease : Option Nat := none

namespace Sweep

/-- The health of the pod, as far as the request and the reply arrive. -/
def probeReply (s : TerminalPod) (o : PodOracle) : Option Health :=
  if o.delivered && o.replied then some (HealthReply.health (s.server.health s.now).2) else none

def accepted (s : TerminalPod) (revision : Int) : Bool :=
  match (s.server.drain s.now "POST" (revisionText revision)).2 with
  | .draining _ => true
  | .error _ _ => false

def act (s : TerminalPod) (p : Sweep) (o : PodOracle) : Option (TerminalPod × Sweep) :=
  match p.script with
  | .pure _ => none
  | .call (.health _ _) next =>
    some (if o.delivered then s.request .health else s, { p with
        script := next (probeReply s o)
        observed := (probeReply s o).map fun _ => s.history })
  | .call (.drain _ revision) next =>
    if o.delivered then
      some (s.request (.drain "POST" (revisionText revision)), { p with
          script := next (accepted s revision && o.replied)
          lease := if accepted s revision then some (s.now + drainLease) else p.lease })
    else some (s, { p with script := next false })
  | .call op next =>
    let done := s.deployments.exec op o.toOracle
    let rest := match done.2 with
      | some reply => next reply
      | none => .pure ()
    some ({ s with deployments := done.1 }, { p with script := rest })

end Sweep

def drainProgram : Program TerminalPod Sweep HandlerArgs PodOracle PodEvent where
  enter := fun args => { script := reconcileTerminal args }
  act := Sweep.act
  outside := fun s event => some (s.request event)

/-- The pod is sound, and its revision counts what has happened, modulo 2^64. -/
structure TerminalPod.Sound (maxSessions : Nat) (s : TerminalPod) : Prop where
  server : s.server.Sound s.now
  limit : s.server.maxSessions = maxSessions
  counted : s.server.revision.toNat = s.history.changes % 2 ^ 64

/-- Time goes on, the history grows, and a lease that still holds is not cut short. -/
structure TerminalPod.Follows (s s' : TerminalPod) : Prop where
  now : s.now ≤ s'.now
  reserved : s.history.reserved ≤ s'.history.reserved
  released : s.history.released ≤ s'.history.released
  lease : ∀ lease ∈ s.server.drainUntil, s'.now < lease → ∃ lease' ∈ s'.server.drainUntil, lease ≤ lease'

section Pod

variable {maxSessions : Nat} {s : TerminalPod}

private theorem TerminalPod.Follows.refl (s : TerminalPod) : s.Follows s :=
  ⟨Nat.le_refl _, Nat.le_refl _, Nat.le_refl _, fun lease hlease _ => ⟨lease, hlease, Nat.le_refl _⟩⟩

private theorem revision_succ {revision : UInt64} {n : Nat} (h : revision.toNat = n % 2 ^ 64) :
    (revision + 1).toNat = (n + 1) % 2 ^ 64 := by
  rw [UInt64.toNat_add, h]
  simp only [UInt64.toNat_one]
  omega

private theorem TerminalPod.Sound.request (h : s.Sound maxSessions) (event : PodEvent) :
    (s.request event).Sound maxSessions ∧ s.Follows (s.request event) := by
  cases event with
  | reserve random unix =>
    have hserver := h.server.reserve random unix
    have hlease {server : Server} {granted : Bool} (hover : ∀ lease ∈ s.server.drainUntil, lease ≤ s.now) :
        s.Follows { s with
          server := server
          history := { s.history with reserved := s.history.reserved + granted.toNat } } := by
      refine ⟨Nat.le_refl _, Nat.le_add_right _ _, Nat.le_refl _, ?_⟩
      intro lease hlease hlt
      exact absurd (hover lease hlease) (Nat.not_le.mpr hlt)
    simp only [TerminalPod.request]
    rcases reserve_cases s.server s.now random unix with
      ⟨id, hgranted, hover, -, hs⟩ | ⟨hrefused, hs | ⟨hover, hs⟩⟩
    · refine ⟨⟨hserver, ?_, ?_⟩, hlease hover⟩
      · rw [hs]
        exact h.limit
      · rw [hs, hgranted]
        have := revision_succ h.counted
        simp only [SessionHistory.changes, Option.isSome_some, Bool.toNat_true] at this ⊢
        rw [this]
        congr 1
        omega
    · rw [hrefused, hs]
      exact ⟨⟨h.server, h.limit, h.counted⟩, TerminalPod.Follows.refl s⟩
    · rw [hrefused]
      refine ⟨⟨hserver, ?_, ?_⟩, hlease hover⟩
      · rw [hs]
        exact h.limit
      · rw [hs]
        exact h.counted
  | release id unix =>
    have hserver := h.server.release id unix
    have hfollows {granted : Bool} : s.Follows { s with
        server := s.server.release id unix
        history := { s.history with released := s.history.released + granted.toNat } } := by
      refine ⟨Nat.le_refl _, Nat.le_refl _, Nat.le_add_right _ _, ?_⟩
      intro lease hlease _
      refine ⟨lease, ?_, Nat.le_refl _⟩
      unfold Server.release
      split
      · exact hlease
      · exact hlease
    refine ⟨⟨hserver, ?_, ?_⟩, hfollows⟩
    · simp only [TerminalPod.request, Server.release]
      split
      · exact h.limit
      · exact h.limit
    · simp only [TerminalPod.request, Server.release]
      split
      · rename_i hmem
        have := revision_succ h.counted
        simp only [SessionHistory.changes, hmem, decide_true, Bool.toNat_true] at this ⊢
        rw [this]
        congr 1
      · rename_i hmem
        simp only [hmem, decide_false, Bool.toNat_false]
        exact h.counted
  | touch unix =>
    refine ⟨⟨h.server.touch unix, h.limit, h.counted⟩, Nat.le_refl _, Nat.le_refl _, Nat.le_refl _, ?_⟩
    intro lease hlease _
    exact ⟨lease, hlease, Nat.le_refl _⟩
  | health =>
    have hserver := h.server.health
    rcases health_cases s.server s.now with hs | ⟨hover, hs⟩
    · simp only [TerminalPod.request, hs]
      exact ⟨⟨h.server, h.limit, h.counted⟩, TerminalPod.Follows.refl s⟩
    · simp only [TerminalPod.request, hs]
      rw [hs] at hserver
      refine ⟨⟨hserver, h.limit, h.counted⟩, Nat.le_refl _, Nat.le_refl _, Nat.le_refl _, ?_⟩
      intro lease hlease hlt
      exact absurd (hover lease hlease) (Nat.not_le.mpr hlt)
  | drain method revision =>
    have hserver := h.server.drain method revision
    rcases drain_cases s.server s.now method revision with ⟨-, -, hnone, hs⟩ | ⟨-, hs⟩
    · simp only [TerminalPod.request, hs]
      rw [hs] at hserver
      refine ⟨⟨hserver, h.limit, h.counted⟩, Nat.le_refl _, Nat.le_refl _, Nat.le_refl _, ?_⟩
      intro lease hlease _
      exact ⟨_, rfl, h.server.granted lease hlease⟩
    · simp only [TerminalPod.request, hs]
      exact ⟨⟨h.server, h.limit, h.counted⟩, TerminalPod.Follows.refl s⟩
  | tick nanoseconds =>
    have hle : s.now ≤ s.now + nanoseconds := Nat.le_add_right _ _
    refine ⟨⟨h.server.later hle, h.limit, h.counted⟩, hle, Nat.le_refl _, Nat.le_refl _, ?_⟩
    intro lease hlease _
    exact ⟨lease, hlease, Nat.le_refl _⟩

end Pod

/-- Every drain asks with the session revision of the last health reply, first `seen`. -/
def FromHealth {α : Type} : Option Int → OperatorScript α → Prop
  | _, .pure _ => True
  | _, .call (.health _ _) next => ∀ reply, FromHealth (reply.bind Health.sessionRevision) (next reply)
  | seen, .call (.drain _ revision) next => seen = some revision ∧ ∀ reply, FromHealth seen (next reply)
  | seen, .call _ next => ∀ reply, FromHealth seen (next reply)

/-- A call that neither reads the health nor asks for a drain. -/
def Apart : OperatorOp → Prop
  | .health _ _ | .drain _ _ => False
  | _ => True

variable {op : OperatorOp}

section Script

variable {α β : Type} {seen : Option Int}

private theorem FromHealth.call {next : op.Reply → OperatorScript α} (hop : Apart op)
    (h : ∀ reply, FromHealth seen (next reply)) : FromHealth seen (.call op next) := by
  cases op with
  | health c ip => exact hop.elim
  | drain ip revision => exact hop.elim
  | _ => exact h

variable {x : OperatorScript α}

private theorem FromHealth.bind {f : α → OperatorScript β}
    (hx : x.Within Apart fun _ _ => True) (hf : ∀ a, FromHealth seen (f a)) : FromHealth seen (x >>= f) := by
  induction x with
  | pure a => exact hf a
  | call op next ih => exact FromHealth.call hx.1 fun reply => ih reply (hx.2 reply trivial)

private theorem FromHealth.of_apart (hx : x.Within Apart fun _ _ => True) : FromHealth seen x := by
  induction x with
  | pure a => trivial
  | call op next ih => exact FromHealth.call hx.1 fun reply => ih reply (hx.2 reply trivial)

private theorem apart_call {f : op.Reply → OperatorScript α}
    (hf : ∀ reply, (f reply).Within Apart fun _ _ => True) (hop : Apart op) :
    (Script.perform op >>= f).Within Apart fun _ _ => True := ⟨hop, fun reply _ => hf reply⟩

private theorem apart_converges (h : Converges x) : x.Within Apart fun _ _ => True := by
  refine h.mono ?_
  intro op hop
  cases op <;> trivial

private theorem apart_getReplicas (c : Component) : (getReplicas c).Within Apart fun _ _ => True :=
  apart_converges (converges_getReplicas c)

theorem apart_takeDown (c : Component) (replicas : Int) : (takeDown c replicas).Within Apart fun _ _ => True := by
  unfold takeDown
  split
  · exact apart_call (fun _ => ⟨trivial, fun _ _ => trivial⟩) trivial
  · trivial

private theorem apart_desired (a : Option Allocation) : (desired a).Within Apart fun _ _ => True :=
  apart_converges (converges_desired a)

private theorem apart_quiesceIfInactive (args : HandlerArgs) :
    (quiesceIfInactive args).Within Apart fun _ _ => True := by
  unfold quiesceIfInactive
  split
  · trivial
  · apply Script.Within.bind (apart_getReplicas _)
    intro _
    apply Script.Within.bind (apart_getReplicas _)
    intro _
    apply Script.Within.bind (apart_takeDown _ _)
    intro _
    apply Script.Within.bind (apart_takeDown _ _)
    exact fun _ => trivial

private theorem apart_ensureTerminalObjects (args : HandlerArgs) (defaults : RunnerDefaults) :
    (ensureTerminalObjects args defaults).Within Apart fun _ _ => True :=
  apart_converges (converges_ensureTerminalObjects args defaults)

private theorem fromHealth_sleepTerminal (args : HandlerArgs) (defaults : RunnerDefaults) (ip : String) (h : Health) :
    FromHealth h.sessionRevision (sleepTerminal args defaults ip h) := by
  obtain ⟨active, lastActivity, sessionRevision⟩ := h
  refine FromHealth.bind (x := clock) ⟨trivial, fun _ _ => trivial⟩ ?_
  intro now
  dsimp only
  split
  · cases sessionRevision with
    | none =>
      dsimp only
      split
      · exact fun _ => trivial
      · exact fun _ => trivial
    | some revision =>
      refine ⟨rfl, ?_⟩
      intro drained
      cases drained with
      | true => exact fun _ _ => trivial
      | false => trivial
  · trivial

private theorem fromHealth_sweepTerminal (args : HandlerArgs) (defaults : RunnerDefaults) :
    FromHealth seen (sweepTerminal args defaults) := by
  intro ip
  cases ip with
  | none => trivial
  | some ip =>
    intro reply
    cases reply with
    | none => trivial
    | some h => exact fromHealth_sleepTerminal args defaults ip h

private theorem fromHealth_pure (a : α) : FromHealth seen (Pure.pure a : OperatorScript α) := trivial

private theorem fromHealth_ite {p : Prop} {_ : Decidable p} {y : OperatorScript α} (hx : FromHealth seen x)
    (hy : FromHealth seen y) : FromHealth seen (if p then x else y) := by
  split
  · exact hx
  · exact hy

private theorem fromHealth_reconcileTerminal (args : HandlerArgs) : FromHealth seen (reconcileTerminal args) := by
  refine FromHealth.bind (x := teardownStarted args) ⟨trivial, fun _ _ => trivial⟩ ?_
  intro started
  apply fromHealth_ite (fromHealth_pure _)
  apply FromHealth.bind (apart_quiesceIfInactive args)
  intro quiesced
  apply fromHealth_ite (fromHealth_pure _)
  refine fromHealth_ite ?_ trivial
  unfold withDefaults
  split
  · trivial
  · rename_i defaults _
    apply FromHealth.bind (apart_desired _)
    intro a
    apply FromHealth.bind (apart_getReplicas _)
    intro replicas
    apply fromHealth_ite (FromHealth.of_apart (apart_takeDown _ _))
    apply FromHealth.bind (apart_getReplicas _)
    intro runnerReplicas
    refine FromHealth.bind (x := readDeployment .runner) ⟨trivial, fun _ _ => trivial⟩ ?_
    intro _
    refine FromHealth.bind (x := appliedAllocationHash) ⟨trivial, fun _ _ => trivial⟩ ?_
    intro applied
    apply fromHealth_ite (fromHealth_pure _)
    apply fromHealth_ite
    · refine FromHealth.bind (x := teardownStarted args) ⟨trivial, fun _ _ => trivial⟩ ?_
      intro started
      exact fromHealth_ite trivial (FromHealth.of_apart (apart_ensureTerminalObjects _ _))
    · exact fromHealth_ite (fromHealth_sweepTerminal args defaults) trivial

end Script

abbrev DrainState : Type := Processes TerminalPod Sweep

abbrev DrainEvent : Type := ProcessEvent HandlerArgs PodOracle PodEvent

def SessionHistory.revision (h : SessionHistory) : Int := ((h.changes % 2 ^ 64 : Nat) : Int)

/-- What a sweep has seen of the pod, and the lease of its drain. -/
structure Sweep.Knows (s : TerminalPod) (p : Sweep) : Prop where
  script : FromHealth (p.observed.map SessionHistory.revision) p.script
  observed : ∀ h ∈ p.observed, h.reserved ≤ s.history.reserved ∧ h.released ≤ s.history.released
  lease : ∀ lease ∈ p.lease, s.now < lease → ∃ lease' ∈ s.server.drainUntil, lease ≤ lease'

def NoneReserved (observed now : SessionHistory) : Prop := now.reserved = observed.reserved

/-- That, unless the revision has gone round. -/
def NoneReservedOrWrapped (observed now : SessionHistory) : Prop :=
  observed.changes + 2 ^ 64 ≤ now.changes ∨ NoneReserved observed now

/-- A drain is accepted only for a pod without a session in which none has been reserved, as `unchanged`
says it, since the sweep read the revision; and while the lease of a sweep holds, the pod has no session
when the sweep scales it down. -/
def LosesNone (unchanged : SessionHistory → SessionHistory → Prop) (s : DrainState) : DrainEvent → Prop
  | .advance i o => ∀ p ∈ s.procs[i]?,
      match p.script with
      | .call (.drain _ revision) _ => o.delivered = true → Sweep.accepted s.shared revision = true →
          s.shared.server.sessions = ∅ ∧ ∃ h ∈ p.observed, unchanged h s.shared.history
      | .call (.scale .terminal 0) _ => ∀ lease ∈ p.lease, s.shared.now < lease → s.shared.server.sessions = ∅
      | _ => True
  | .outside (.drain method revision) => ∀ current,
      (s.shared.server.drain s.shared.now method revision).2 = .draining current →
        s.shared.server.sessions = ∅ ∧ parseUint revision = some s.shared.server.revision
  | .spawn _ | .outside _ => True

section Step

variable {maxSessions : Nat} {s s' : TerminalPod} {p : Sweep}

private theorem Sweep.Knows.follows (h : p.Knows s) (hf : s.Follows s') : p.Knows s' := by
  refine ⟨h.script, ?_, ?_⟩
  · intro seen hseen
    obtain ⟨hreserved, hreleased⟩ := h.observed seen hseen
    exact ⟨hreserved.trans hf.reserved, hreleased.trans hf.released⟩
  · intro lease hlease hlt
    obtain ⟨until', huntil, hle⟩ := h.lease lease hlease (hf.now.trans_lt hlt)
    obtain ⟨later, hlater, hle'⟩ := hf.lease until' huntil (hlt.trans_le hle)
    exact ⟨later, hlater, hle.trans hle'⟩

variable {revision : Int}

private theorem accepted_eq_true (h : Sweep.accepted s revision = true) :
    parseUint (revisionText revision) = some s.server.revision ∧ s.server.sessions = ∅ ∧
      (s.server.drain s.now "POST" (revisionText revision)).1 =
        { s.server with drainUntil := some (s.now + drainLease) } := by
  rcases drain_cases s.server s.now "POST" (revisionText revision) with ⟨-, hsame, hnone, hs⟩ | ⟨⟨_, _, hr⟩, -⟩
  · exact ⟨hsame, hnone, hs⟩
  · simp only [Sweep.accepted, hr] at h
    cases h

private theorem parseUint_revisionText (h : SessionHistory) : ∃ revision : UInt64,
    parseUint (revisionText h.revision) = some revision ∧ revision.toNat = h.changes % 2 ^ 64 := by
  have hlt : h.changes % 2 ^ 64 < 2 ^ 64 := Nat.mod_lt _ (by decide)
  refine ⟨UInt64.ofNat (h.changes % 2 ^ 64), ?_, ?_⟩
  · have htext : revisionText h.revision = Nat.toDigits 10 (UInt64.ofNat (h.changes % 2 ^ 64)).toNat := by
      have hnonneg : ¬ h.revision < 0 := by
        unfold SessionHistory.revision
        omega
      unfold revisionText
      rw [if_neg hnonneg, UInt64.toNat_ofNat_of_lt' hlt]
      rfl
    rw [htext, parseUint_toDigits]
  · exact UInt64.toNat_ofNat_of_lt' hlt

variable {ip : String}

private theorem unchanged_of_accepted (hs : s.Sound maxSessions) (hp : p.Knows s)
    {next : Bool → OperatorScript Unit} (hscript : p.script = .call (.drain ip revision) next)
    (haccepted : Sweep.accepted s revision = true) :
    s.server.sessions = ∅ ∧ ∃ h ∈ p.observed, NoneReservedOrWrapped h s.history := by
  obtain ⟨hparse, hnone, -⟩ := accepted_eq_true haccepted
  refine ⟨hnone, ?_⟩
  have hfrom := hp.script
  rw [hscript] at hfrom
  obtain ⟨h, hobserved, hrevision⟩ := Option.map_eq_some_iff.mp hfrom.1
  refine ⟨h, hobserved, ?_⟩
  obtain ⟨hreserved, hreleased⟩ := hp.observed h hobserved
  obtain ⟨seen, hseen, hcount⟩ := parseUint_revisionText h
  rw [hrevision, hparse] at hseen
  have hsame : s.history.changes % 2 ^ 64 = h.changes % 2 ^ 64 := by
    rw [← hs.counted, ← hcount, Option.some.inj hseen]
  -- the changes since then are a multiple of 2^64
  unfold NoneReservedOrWrapped NoneReserved
  unfold SessionHistory.changes at hsame ⊢
  omega

private theorem FromHealth.rest {seen : Option Int} {next : op.Reply → OperatorScript Unit}
    (hop : Apart op) (h : FromHealth seen (.call op next)) (reply : op.Reply) : FromHealth seen (next reply) := by
  cases op with
  | health c ip => exact hop.elim
  | drain ip revision => exact hop.elim
  | _ => exact h reply

private theorem Sweep.act_apart {next : op.Reply → OperatorScript Unit} (hop : Apart op)
    (hscript : p.script = .call op next) (o : PodOracle) :
    p.act s o = some ({ s with deployments := (s.deployments.exec op o.toOracle).1 },
      { p with script := match (s.deployments.exec op o.toOracle).2 with
          | some reply => next reply
          | none => .pure () }) := by
  unfold Sweep.act
  rw [hscript]
  cases op with
  | health c ip => exact hop.elim
  | drain ip revision => exact hop.elim
  | _ => rfl

private theorem Sweep.Knows.health (hs : s.Sound maxSessions) (hp : p.Knows s) {c : Component}
    {next : Option Health → OperatorScript Unit} (hscript : p.script = .call (.health c ip) next) (o : PodOracle)
    (hf : s.Follows s') (hsame : s'.history = s.history) :
    Sweep.Knows s' { p with
      script := next (probeReply s o)
      observed := (probeReply s o).map fun _ => s.history } := by
  have hscript' := hp.script
  rw [hscript] at hscript'
  refine ⟨?_, ?_, (hp.follows hf).lease⟩
  · have hrevision : ((probeReply s o).map fun _ => s.history).map SessionHistory.revision =
        (probeReply s o).bind Health.sessionRevision := by
      unfold probeReply
      split
      · have hcounted : (s.server.health s.now).2.sessionRevision.toNat = s.history.changes % 2 ^ 64 := by
          rw [← hs.counted]
          unfold Server.health
          split <;> rfl
        simp only [Option.map_some, Option.bind_some, HealthReply.health, hcounted]
        rfl
      · rfl
    rw [hrevision]
    exact hscript' _
  · intro h hobserved
    obtain ⟨_, -, rfl⟩ := Option.map_eq_some_iff.mp hobserved
    rw [hsame]
    exact ⟨Nat.le_refl _, Nat.le_refl _⟩

private theorem Sweep.Knows.drain (hp : p.Knows s) {next : Bool → OperatorScript Unit}
    (hscript : p.script = .call (.drain ip revision) next) (replied : Bool)
    (hf : s.Follows (s.request (.drain "POST" (revisionText revision)))) :
    Sweep.Knows (s.request (.drain "POST" (revisionText revision))) { p with
      script := next (accepted s revision && replied)
      lease := if accepted s revision then some (s.now + drainLease) else p.lease } := by
  have hscript' := hp.script
  rw [hscript] at hscript'
  have hfollows := hp.follows hf
  refine ⟨hscript'.2 _, hfollows.observed, ?_⟩
  cases haccepted : accepted s revision with
  | false => exact hfollows.lease
  | true =>
    obtain ⟨-, -, hserver⟩ := accepted_eq_true haccepted
    rintro _ ⟨⟩ -
    refine ⟨s.now + drainLease, ?_, Nat.le_refl _⟩
    simp only [TerminalPod.request, hserver]
    rfl

private theorem sweep_act (hs : s.Sound maxSessions) (hp : p.Knows s) {o : PodOracle} {next : TerminalPod × Sweep}
    (hact : p.act s o = some next) : next.1.Sound maxSessions ∧ next.2.Knows next.1 ∧ s.Follows next.1 := by
  cases hscript : p.script with
  | pure a => simp [Sweep.act, hscript] at hact
  | call op rest =>
    by_cases hop : Apart op
    · rw [Sweep.act_apart hop hscript] at hact
      cases hact
      have hf : s.Follows { s with deployments := (s.deployments.exec op o.toOracle).1 } :=
        ⟨Nat.le_refl _, Nat.le_refl _, Nat.le_refl _, fun lease hlease _ => ⟨lease, hlease, Nat.le_refl _⟩⟩
      have hfollows := hp.follows hf
      refine ⟨⟨hs.server, hs.limit, hs.counted⟩, ⟨?_, hfollows.observed, hfollows.lease⟩, hf⟩
      have hfrom := hp.script
      rw [hscript] at hfrom
      cases (s.deployments.exec op o.toOracle).2 with
      | none => trivial
      | some reply => exact hfrom.rest hop reply
    · cases op with
      | health c ip =>
        have hdone : (if o.delivered then s.request .health else s).Sound maxSessions ∧
            s.Follows (if o.delivered then s.request .health else s) ∧
            (if o.delivered then s.request .health else s).history = s.history := by
          split
          · exact ⟨(hs.request .health).1, (hs.request .health).2, rfl⟩
          · exact ⟨hs, TerminalPod.Follows.refl s, rfl⟩
        simp only [Sweep.act, hscript] at hact
        cases hact
        exact ⟨hdone.1, hp.health hs hscript o hdone.2.1 hdone.2.2, hdone.2.1⟩
      | drain ip revision =>
        obtain ⟨hsound, hf⟩ := hs.request (.drain "POST" (revisionText revision))
        simp only [Sweep.act, hscript] at hact
        split at hact
        · cases hact
          exact ⟨hsound, hp.drain hscript o.replied hf, hf⟩
        · cases hact
          have hfrom := hp.script
          rw [hscript] at hfrom
          exact ⟨hs, ⟨hfrom.2 _, hp.observed, hp.lease⟩, TerminalPod.Follows.refl s⟩
      | _ => exact absurd trivial hop

end Step

private theorem drainProgram_step {maxSessions : Nat} {s s' : DrainState} {event : DrainEvent}
    (hi : Program.Holds (TerminalPod.Sound maxSessions) Sweep.Knows s)
    (hs : drainProgram.step s event = some s') :
    Program.Holds (TerminalPod.Sound maxSessions) Sweep.Knows s' := by
  refine hi.step (fun _ _ => True) event trivial ?_ ?_ ?_ hs
  · intro s args _ _
    exact ⟨fromHealth_reconcileTerminal args, by rintro _ ⟨⟩, by rintro _ ⟨⟩⟩
  · intro s i o p next hi _ hp hact
    obtain ⟨hsound, hknows, hf⟩ := sweep_act hi.1 (hi.2 p (List.mem_of_getElem? hp)) hact
    exact ⟨hsound, hknows, fun _ _ _ _ hq => hq.follows hf⟩
  · intro s event pod hi _ ho
    cases ho
    obtain ⟨hsound, hf⟩ := hi.1.request event
    exact ⟨hsound, fun _ _ hq => hq.follows hf⟩

private theorem losesNone_of_holds {maxSessions : Nat} {s : DrainState} {event : DrainEvent}
    (hi : Program.Holds (TerminalPod.Sound maxSessions) Sweep.Knows s) :
    LosesNone NoneReservedOrWrapped s event := by
  cases event with
  | spawn args => trivial
  | outside event =>
    cases event with
    | drain method revision =>
      intro current hgranted
      rcases drain_cases s.shared.server s.shared.now method revision with
        ⟨-, hsame, hnone, -⟩ | ⟨⟨_, _, hr⟩, -⟩
      · exact ⟨hnone, hsame⟩
      · rw [hr] at hgranted
        cases hgranted
    | _ => trivial
  | advance i o =>
    intro p hp
    have hknows := hi.2 p (List.mem_of_getElem? hp)
    split
    · rename_i hscript
      exact fun _ haccepted => unchanged_of_accepted hi.1 hknows hscript haccepted
    · intro lease hlease hlt
      obtain ⟨lease', hheld, hle⟩ := hknows.lease lease hlease hlt
      exact hi.1.server.drained lease' hheld (hlt.trans_le hle)
    · trivial

def startedPod (maxSessions : Nat) (unix : Int) (now : Nat) (deployments : Deployments) : DrainState :=
  ⟨{ server := newServer maxSessions unix, now := now, deployments := deployments }, []⟩

private theorem startedPod_holds (maxSessions : Nat) (unix : Int) (now : Nat) (deployments : Deployments) :
    Program.Holds (TerminalPod.Sound maxSessions) Sweep.Knows (startedPod maxSessions unix now deployments) :=
  ⟨⟨Server.sound_newServer maxSessions unix, rfl, rfl⟩, by rintro _ ⟨⟩⟩

/-- In every run the sessions stay within their limit, and a drain loses none. -/
theorem losesNone_of_run (maxSessions : Nat) (unix : Int) (now : Nat) (deployments : Deployments)
    (events : List DrainEvent) :
    (∀ s', run drainProgram.step (startedPod maxSessions unix now deployments) events = some s' →
      s'.shared.server.sessions.card ≤ maxSessions) ∧
    RunMeets drainProgram.step (LosesNone NoneReservedOrWrapped)
      (startedPod maxSessions unix now deployments) events := by
  have hinit := startedPod_holds maxSessions unix now deployments
  refine ⟨?_, ?_⟩
  · intro s' hrun
    have hi := run_invariant_always (fun _ _ _ hi hs => drainProgram_step hi hs) hinit hrun
    rw [← hi.1.limit]
    exact hi.1.server.bounded
  · exact runMeets_of_invariant (fun _ _ _ hi _ hs => drainProgram_step hi hs)
      (fun _ _ hi _ => losesNone_of_holds hi) hinit (runMeets_true _ events)

def busy : Nat → List DrainEvent
  | 0 => []
  | n + 1 => .outside (.reserve (some "t") 0) :: .outside (.release "t" 0) :: busy n

/-- A pod that takes sessions and has none. -/
structure Free (s : TerminalPod) : Prop where
  room : 0 < s.server.maxSessions
  idle : s.server.sessions = ∅
  opened : s.server.drainUntil = none

private theorem Free.session {s : TerminalPod} (h : Free s) :
    Free ((s.request (.reserve (some "t") 0)).request (.release "t" 0)) ∧
      ((s.request (.reserve (some "t") 0)).request (.release "t" 0)).history =
        ⟨s.history.reserved + 1, s.history.released + 1⟩ := by
  have hreserve : s.server.reserve s.now (some "t") 0 = ({ s.server with
      sessions := {"t"}, revision := s.server.revision + 1, lastActivity := 0 }, some "t") := by
    have hroom : ¬ s.server.maxSessions ≤ 0 := Nat.not_le.mpr h.room
    simp [Server.reserve, h.opened, h.idle, hroom]
  have hrelease : Server.release { s.server with
      sessions := {"t"}, revision := s.server.revision + 1, lastActivity := 0 } "t" 0 =
      { s.server with sessions := ∅, revision := s.server.revision + 1 + 1, lastActivity := 0 } := by
    simp [Server.release]
  simp only [TerminalPod.request, hreserve, hrelease, Finset.mem_singleton, decide_true, Bool.toNat_true,
    Option.isSome_some]
  exact ⟨⟨h.room, rfl, h.opened⟩, trivial⟩

private theorem run_busy (n : Nat) {s : DrainState} (h : Free s.shared) : ∃ s',
    run drainProgram.step s (busy n) = some s' ∧ s'.procs = s.procs ∧ Free s'.shared ∧
      s'.shared.history = ⟨s.shared.history.reserved + n, s.shared.history.released + n⟩ := by
  induction n generalizing s with
  | zero => exact ⟨s, rfl, rfl, h, rfl⟩
  | succ n ih =>
    obtain ⟨hfree, hhistory⟩ := h.session
    obtain ⟨s', hrun, hprocs, hfree', hhistory'⟩ := @ih
      ⟨(s.shared.request (.reserve (some "t") 0)).request (.release "t" 0), s.procs⟩ hfree
    refine ⟨s', hrun, hprocs, hfree', ?_⟩
    rw [hhistory', hhistory]
    simp only [SessionHistory.mk.injEq]
    omega

def drainedTenant : HandlerArgs where
  spec := { accountId := "a", username := "u" }
  uid := "1"
  defaults := some { cpuM := 1000, memoryMb := 1024, storageGb := 1, terminalResourcePercent := 20 }

def sweptToDrain : List DrainEvent :=
  .spawn drainedTenant :: List.replicate 8 (.advance 0 { podIp := some "10.0.0.1" })

def runningTerminal : Deployments where
  terminal := some ⟨⟨none, 20, ⟨200, 204⟩⟩, 1, 0⟩

/-- The next call of the only sweep is a drain with the revision zero, which it has read at the start. -/
def asksToDrain (s : DrainState) : Bool :=
  match s.procs with
  | [p] =>
    match p.script with
    | .call (.drain _ revision) _ => revision = 0 && p.observed = some {}
    | _ => false
  | _ => false

theorem exists_sweptToDrain : ∃ s, run drainProgram.step (startedPod 2 0 0 runningTerminal) sweptToDrain = some s ∧
    (asksToDrain s && decide (s.shared.server = newServer 2 0) && decide (s.shared.history = {})) = true :=
  exists_run_of_map _ _ _ _ (by decide)

/-- After 2^64 changes the revision that the sweep has read is current again. -/
theorem wrappedRun_not_losesNone : ¬ RunMeets drainProgram.step (LosesNone NoneReserved)
    (startedPod 2 0 0 runningTerminal) (sweptToDrain ++ (busy (2 ^ 63) ++ [.advance 0 {}])) := by
  intro hm
  obtain ⟨s, hrun, htest⟩ := exists_sweptToDrain
  simp only [Bool.and_eq_true, decide_eq_true_eq] at htest
  obtain ⟨⟨hasks, hserver⟩, hhistory⟩ := htest
  have hfree : Free s.shared := by
    refine ⟨?_, ?_, ?_⟩
    · rw [hserver]
      exact Nat.zero_lt_two
    · rw [hserver]
      rfl
    · rw [hserver]
      rfl
  obtain ⟨s', hbusy, hprocs, hfree', hhistory'⟩ := run_busy (2 ^ 63) hfree
  have hholds := run_invariant_always (fun _ _ _ hi hs => drainProgram_step hi hs)
    (startedPod_holds 2 0 0 runningTerminal) hrun
  have hholds' := run_invariant_always (fun _ _ _ hi hs => drainProgram_step hi hs) hholds hbusy
  -- the revision is zero again
  have hrevision : s'.shared.server.revision = 0 := by
    apply UInt64.toNat_inj.mp
    rw [hholds'.1.counted, hhistory', hhistory]
    rfl
  have hlast := ((hm.split hrun).2.split hbusy).2.1
  unfold asksToDrain at hasks
  split at hasks
  · rename_i p hp
    split at hasks
    · rename_i ip revision next hscript
      simp only [Bool.and_eq_true, decide_eq_true_eq] at hasks
      obtain ⟨rfl, hobserved⟩ := hasks
      have haccepted : Sweep.accepted s'.shared 0 = true := by
        have hparse : parseUint (revisionText 0) = some 0 := rfl
        simp [Sweep.accepted, Server.drain, hparse, hrevision, hfree'.idle]
      have hmem : p ∈ s'.procs[0]? := by
        rw [hprocs, hp]
        rfl
      have hlost := hlast p hmem
      simp only [hscript] at hlost
      obtain ⟨-, h, hseen, hnone⟩ := hlost trivial haccepted
      rw [hobserved] at hseen
      cases hseen
      rw [NoneReserved, hhistory', hhistory] at hnone
      cases hnone
    · cases hasks
  · cases hasks

end PrivaCloud.Operator
