import PrivaCloud.Framework.Processes

/-!
# Handlers as scripts of remote calls

A handler is a tree of remote calls on a shared state; whatever else a reply depends on is an oracle, and
a call that raises ends the handler. A script that keeps an invariant while it runs alone keeps it in every
run in which no script writes after another one has written behind its back.
-/

namespace PrivaCloud.Framework

/-- A program that makes remote calls. -/
inductive Script (Op : Type) (Reply : Op → Type) (α : Type)
  | pure (a : α)
  | call (op : Op) (next : Reply op → Script Op Reply α)

namespace Script

variable {Op : Type} {Reply : Op → Type} {α β : Type} {x : Script Op Reply α}

def bind : Script Op Reply α → (α → Script Op Reply β) → Script Op Reply β
  | pure a, f => f a
  | call op next, f => call op fun reply => (next reply).bind f

instance : Monad (Script Op Reply) where
  pure := Script.pure
  bind := Script.bind

def perform (op : Op) : Script Op Reply (Reply op) := call op pure

@[simp] theorem pure_bind' (a : α) (f : α → Script Op Reply β) : (Pure.pure a : Script Op Reply α) >>= f = f a :=
  rfl

@[simp] theorem call_bind (op : Op) (next : Reply op → Script Op Reply α) (f : α → Script Op Reply β) :
    (call op next) >>= f = call op fun reply => next reply >>= f := rfl

@[simp] theorem perform_bind (op : Op) (f : Reply op → Script Op Reply β) :
    (perform op : Script Op Reply (Reply op)) >>= f = call op f := rfl

section Calls

variable (ok : Op → Prop) (possible : (op : Op) → Reply op → Prop)

/-- Every call that is reached through possible replies is one of `ok`. -/
def Within : Script Op Reply α → Prop
  | pure _ => True
  | call op next => ok op ∧ ∀ reply, possible op reply → (next reply).Within

variable {ok possible}

theorem Within.bind {f : α → Script Op Reply β} (hx : x.Within ok possible)
    (hf : ∀ a, (f a).Within ok possible) : (x >>= f).Within ok possible := by
  induction x with
  | pure a => exact hf a
  | call op next ih => exact ⟨hx.1, fun reply hreply => ih reply (hx.2 reply hreply)⟩

theorem Within.mono {ok' : Op → Prop} (h : ∀ op, ok op → ok' op)
    (hx : x.Within ok possible) : x.Within ok' possible := by
  induction x with
  | pure a => trivial
  | call op next ih => exact ⟨h op hx.1, fun reply hreply => ih reply (hx.2 reply hreply)⟩

theorem Within.perform {op : Op} (h : ok op) : (perform op : Script Op Reply (Reply op)).Within ok possible :=
  ⟨h, fun _ _ => trivial⟩

end Calls

section Alone

variable {σ ω : Type} (exec : σ → (op : Op) → ω → σ × Option (Reply op)) (pre : σ → Op → Prop)
  (inv : σ → Prop)

/-- From this state every call keeps the invariant, as long as no call violates `pre`, and the result
meets `post`. -/
def Safe (post : α → σ → Prop) : Script Op Reply α → σ → Prop
  | pure a, s => post a s
  | call op next, s => pre s op → ∀ oracle, inv (exec s op oracle).1 ∧
      ∀ reply, (exec s op oracle).2 = some reply → Safe post (next reply) (exec s op oracle).1

variable {exec pre inv}

theorem Safe.mono {post post' : α → σ → Prop} (hpost : ∀ a s, post a s → post' a s)
    {s : σ} (h : Safe exec pre inv post x s) : Safe exec pre inv post' x s := by
  induction x generalizing s with
  | pure a => exact hpost a s h
  | call op next ih =>
    intro hpre oracle
    obtain ⟨hinv, hnext⟩ := h hpre oracle
    exact ⟨hinv, fun reply hreply => ih reply (hnext reply hreply)⟩

theorem Safe.bind {post : β → σ → Prop} {f : α → Script Op Reply β} {s : σ}
    (h : Safe exec pre inv (fun a s => Safe exec pre inv post (f a) s) x s) :
    Safe exec pre inv post (x >>= f) s := by
  induction x generalizing s with
  | pure a => exact h
  | call op next ih =>
    intro hpre oracle
    obtain ⟨hinv, hnext⟩ := h hpre oracle
    exact ⟨hinv, fun reply hreply => ih reply (hnext reply hreply)⟩

end Alone

/-- The shared state and the number of writes so far. -/
structure Stamped (σ : Type) where
  state : σ
  writes : Nat

/-- A script that runs; the stamp is the number of writes at its last call that was not disturbed. -/
structure Task (Op : Type) (Reply : Op → Type) where
  stamp : Option Nat
  script : Script Op Reply Unit

section Beside

variable {σ ω ρ : Type} (exec : σ → (op : Op) → ω → σ × Option (Reply op)) (isWrite : Op → Bool)
  (handler : ρ → Script Op Reply Unit)

def act (s : Stamped σ) (task : Task Op Reply) (oracle : ω) : Option (Stamped σ × Task Op Reply) :=
  match task.script with
  | pure _ => none
  | call op next =>
    let done := exec s.state op oracle
    let writes := s.writes + (isWrite op).toNat
    let stamp := if task.stamp.getD s.writes = s.writes then some writes else task.stamp
    let rest := match done.2 with
      | some reply => next reply
      | none => pure ()
    some (⟨done.1, writes⟩, ⟨stamp, rest⟩)

/-- The handlers of the requests, in any order. -/
def program : Program (Stamped σ) (Task Op Reply) ρ ω Empty where
  enter := fun request => ⟨none, handler request⟩
  act := act exec isWrite
  outside := fun _ event => nomatch event

variable (pre : σ → Op → Prop) (inv : σ → Prop)

/-- A task that writes has begun after the last write of another one, and `pre` is the case. -/
def TaskUndisturbed (s : Stamped σ) (task : Task Op Reply) : Prop :=
  match task.script with
  | pure _ => True
  | call op _ => pre s.state op ∧ (isWrite op = true → task.stamp.getD s.writes = s.writes)

def Undisturbed (s : Processes (Stamped σ) (Task Op Reply)) : ProcessEvent ρ ω Empty → Prop
  | .advance i _ => ∀ task ∈ s.procs[i]?, TaskUndisturbed isWrite pre s.shared task
  | .spawn _ | .outside _ => True

instance [∀ s op, Decidable (pre s op)] (s : Stamped σ) (task : Task Op Reply) :
    Decidable (TaskUndisturbed isWrite pre s task) :=
  match task with
  | ⟨_, pure _⟩ => .isTrue trivial
  | ⟨_, call _ _⟩ => inferInstanceAs (Decidable (_ ∧ _))

instance [∀ s op, Decidable (pre s op)] (s : Processes (Stamped σ) (Task Op Reply)) :
    (event : ProcessEvent ρ ω Empty) → Decidable (Undisturbed isWrite pre s event)
  | .advance i _ => inferInstanceAs (Decidable (∀ task ∈ s.procs[i]?, _))
  | .spawn _ | .outside _ => .isTrue trivial

variable {isWrite pre} in
theorem Undisturbed.mono {pre' : σ → Op → Prop} (h : ∀ s op, pre s op → pre' s op)
    {s : Processes (Stamped σ) (Task Op Reply)} {event : ProcessEvent ρ ω Empty}
    (hu : Undisturbed isWrite pre s event) : Undisturbed isWrite pre' s event := by
  cases event with
  | spawn request => trivial
  | outside event => trivial
  | advance i oracle =>
    intro task htask
    have hold := hu task htask
    unfold TaskUndisturbed at hold ⊢
    split at hold
    · trivial
    · exact ⟨h _ _ hold.1, hold.2⟩

/-- What a task knows of the state as long as it is not disturbed. -/
def Ready (s : Stamped σ) (task : Task Op Reply) : Prop :=
  match task.stamp with
  | none => ∀ state, inv state → Safe exec pre inv (fun _ _ => True) task.script state
  | some stamp => stamp ≤ s.writes ∧
      (stamp = s.writes → Safe exec pre inv (fun _ _ => True) task.script s.state)

variable {exec isWrite handler pre inv}

theorem ready_act (hread : ∀ s op oracle, isWrite op = false → (exec s op oracle).1 = s)
    {s : Stamped σ} {task : Task Op Reply} {op : Op} {next : Reply op → Script Op Reply Unit} {oracle : ω}
    {after : Stamped σ × Task Op Reply} (hscript : task.script = call op next) (hinv : inv s.state)
    (hready : Ready exec pre inv s task) (hpre : pre s.state op)
    (hfree : isWrite op = true → task.stamp.getD s.writes = s.writes)
    (hact : act exec isWrite s task oracle = some after) :
    inv after.1.state ∧ Ready exec pre inv after.1 after.2 := by
  obtain ⟨stamp, script⟩ := task
  obtain rfl := hscript
  cases hact
  by_cases hcurrent : stamp.getD s.writes = s.writes
  · have hsafe : Safe exec pre inv (fun _ _ => True) (call op next) s.state := by
      cases stamp with
      | none => exact hready s.state hinv
      | some stamp => exact hready.2 hcurrent
    obtain ⟨hinv', hnext⟩ := hsafe hpre oracle
    refine ⟨hinv', ?_⟩
    simp only [Ready, if_pos hcurrent]
    refine ⟨Nat.le_refl _, fun _ => ?_⟩
    cases hreply : (exec s.state op oracle).2 with
    | none => trivial
    | some reply => exact hnext reply hreply
  · have hquiet : isWrite op = false := by
      cases hw : isWrite op with
      | false => rfl
      | true => exact absurd (hfree hw) hcurrent
    have hsame := hread s.state op oracle hquiet
    cases stamp with
    | none => exact absurd rfl hcurrent
    | some stamp =>
      refine ⟨?_, ?_⟩
      · simp only [hsame]
        exact hinv
      · have hold : stamp ≤ s.writes := hready.1
        have hbehind : stamp ≠ s.writes := hcurrent
        simp only [Ready, if_neg hcurrent, hquiet, Bool.toNat_false, Nat.add_zero]
        exact ⟨hold, fun h => absurd h hbehind⟩

/-- The other tasks stay ready: a write disturbs them, a read does not touch the state. -/
theorem Ready.others (hread : ∀ s op oracle, isWrite op = false → (exec s op oracle).1 = s)
    {s : Stamped σ} {task other : Task Op Reply} {oracle : ω} {after : Stamped σ × Task Op Reply}
    (hact : act exec isWrite s task oracle = some after) (hready : Ready exec pre inv s other) :
    Ready exec pre inv after.1 other := by
  obtain ⟨stamp, script⟩ := task
  cases script with
  | pure a => cases hact
  | call op next =>
    cases hact
    unfold Ready at hready ⊢
    cases hstamp : other.stamp with
    | none =>
      rw [hstamp] at hready
      exact hready
    | some t =>
      rw [hstamp] at hready
      obtain ⟨hle, hsafe⟩ := hready
      cases hw : isWrite op with
      | true =>
        simp only [Bool.toNat_true]
        exact ⟨by omega, fun hnow => by omega⟩
      | false =>
        simp only [Bool.toNat_false, Nat.add_zero, hread s.state op oracle hw]
        exact ⟨hle, hsafe⟩

/-- If every handler that runs alone keeps the invariant, then so does every run whose writes are not
disturbed. -/
theorem invariant_of_undisturbed {allowed : ρ → Prop}
    (hread : ∀ s op oracle, isWrite op = false → (exec s op oracle).1 = s)
    (hsafe : ∀ request, allowed request → ∀ state, inv state →
      Safe exec pre inv (fun _ _ => True) (handler request) state)
    {s s' : Processes (Stamped σ) (Task Op Reply)} {events : List (ProcessEvent ρ ω Empty)}
    (hidle : s.procs = []) (hinv : inv s.shared.state)
    (hallowed : ∀ request, .spawn request ∈ events → allowed request)
    (hm : RunMeets (program exec isWrite handler).step (Undisturbed isWrite pre) s events)
    (hrun : run (program exec isWrite handler).step s events = some s') : inv s'.shared.state := by
  have hboth := hm.and_mem (p := fun event => ∀ request, event = .spawn request → allowed request)
    (by
      intro event hevent request heq
      rw [heq] at hevent
      exact hallowed request hevent)
  have hholds : Program.Holds (fun s => inv s.state) (Ready exec pre inv) s' := by
    refine run_invariant ?_ ?_ hboth hrun
    · intro s event s' hi hc hs
      refine hi.step (fun s event => (∀ request, event = .spawn request → allowed request) ∧
        Undisturbed isWrite pre s event) event hc ?_ ?_ ?_ hs
      · intro s request _ hc
        exact hsafe request (hc.1 request rfl)
      · intro s i oracle task after hi hc htask hact
        have hact' : act exec isWrite s.shared task oracle = some after := hact
        have hcond := hc.2 task htask
        have hmem := List.mem_of_getElem? htask
        cases hscript : task.script with
        | pure a => simp [act, hscript] at hact'
        | call op next =>
          simp only [TaskUndisturbed, hscript] at hcond
          obtain ⟨hinv', hready'⟩ := ready_act hread hscript hi.1 (hi.2 task hmem) hcond.1 hcond.2 hact'
          exact ⟨hinv', hready', fun _ _ _ _ hother => hother.others hread hact'⟩
      · intro s event
        cases event
    · refine ⟨hinv, ?_⟩
      rw [hidle]
      simp
  exact hholds.1

end Beside

end Script

end PrivaCloud.Framework
