import Mathlib.Tactic.Common

/-!
# Runs of a system of atomic sections

An asynchronous program is a partial step function: an event names the next section that the event loop executes,
up to the next suspension, and a section whose guard fails blocks the run. Nothing here names a particular program.
-/

namespace PrivaCloud.Framework

variable {State Event : Type*}

def run (step : State → Event → Option State) : State → List Event → Option State
  | s, [] => some s
  | s, e :: es => (step s e).bind (run step · es)

/-- Every section of the list meets `cond` in the state it starts from. -/
def RunMeets (step : State → Event → Option State) (cond : State → Event → Prop) : State → List Event → Prop
  | _, [] => True
  | s, e :: es => cond s e ∧ match step s e with
      | none => True
      | some s' => RunMeets step cond s' es

/-- A condition that can be evaluated can be evaluated along a run. -/
instance decidableRunMeets (step : State → Event → Option State) (cond : State → Event → Prop)
    [∀ s e, Decidable (cond s e)] :
    (s : State) → (es : List Event) → Decidable (RunMeets step cond s es)
  | _, [] => .isTrue trivial
  | s, e :: es =>
    have : Decidable (match step s e with
        | none => True
        | some s' => RunMeets step cond s' es) :=
      match step s e with
      | none => .isTrue trivial
      | some s' => decidableRunMeets step cond s' es
    inferInstanceAs (Decidable (_ ∧ _))

section Rules

variable {step : State → Event → Option State} {cond : State → Event → Prop}

@[simp] theorem run_nil (s : State) : run step s [] = some s := rfl

theorem run_cons (s : State) (e : Event) (es : List Event) :
    run step s (e :: es) = (step s e).bind (run step · es) := rfl

theorem run_cons_eq_some {s s' : State} {e : Event} {es : List Event} :
    run step s (e :: es) = some s' ↔ ∃ mid, step s e = some mid ∧ run step mid es = some s' := by
  simp [run_cons, Option.bind_eq_some_iff]

theorem exists_run_of_map (step : State → Event → Option State) (s : State) (es : List Event)
    (test : State → Bool) (h : (run step s es).map test = some true) : ∃ s', run step s es = some s' ∧ test s' := by
  obtain ⟨s', hr, ht⟩ := Option.map_eq_some_iff.mp h
  exact ⟨s', hr, ht⟩

theorem exists_run_of_decide (step : State → Event → Option State) (s : State) (es : List Event) {p q : State → Prop}
    [DecidablePred p] (hq : ∀ s', p s' → q s') (h : (run step s es).map (fun s' => decide (p s')) = some true) :
    ∃ s', run step s es = some s' ∧ q s' := by
  obtain ⟨s', hr, ht⟩ := exists_run_of_map step s es (fun s' => decide (p s')) h
  exact ⟨s', hr, hq s' (of_decide_eq_true ht)⟩

theorem runMeets_cons {s mid : State} {e : Event} {es : List Event} (hs : step s e = some mid) :
    RunMeets step cond s (e :: es) ↔ cond s e ∧ RunMeets step cond mid es := by
  simp [RunMeets, hs]

theorem RunMeets.and {cond' : State → Event → Prop} {s : State} {es : List Event}
    (h : RunMeets step cond s es) (h' : RunMeets step cond' s es) :
    RunMeets step (fun s e => cond s e ∧ cond' s e) s es := by
  induction es generalizing s with
  | nil => trivial
  | cons e es ih =>
    obtain ⟨hc, hm⟩ := h
    obtain ⟨hc', hm'⟩ := h'
    refine ⟨⟨hc, hc'⟩, ?_⟩
    cases hs : step s e with
    | none => trivial
    | some mid =>
      rw [hs] at hm hm'
      exact ih hm hm'

theorem runMeets_of_forall {p : Event → Prop} {s : State} {es : List Event} (hp : ∀ e ∈ es, p e) :
    RunMeets step (fun _ e => p e) s es := by
  induction es generalizing s with
  | nil => trivial
  | cons e es ih =>
    refine ⟨hp e List.mem_cons_self, ?_⟩
    cases step s e with
    | none => trivial
    | some mid => exact ih fun e' he => hp e' (List.mem_cons_of_mem _ he)

theorem runMeets_true (s : State) (es : List Event) : RunMeets step (fun _ _ => True) s es :=
  runMeets_of_forall fun _ _ => trivial

theorem RunMeets.and_mem {p : Event → Prop} {s : State} {es : List Event}
    (h : RunMeets step cond s es) (hp : ∀ e ∈ es, p e) :
    RunMeets step (fun s e => p e ∧ cond s e) s es :=
  (runMeets_of_forall hp).and h

theorem run_invariant {inv : State → Prop} (hstep : ∀ s e s', inv s → cond s e → step s e = some s' → inv s')
    {s s' : State} {es : List Event} (hi : inv s) (hm : RunMeets step cond s es)
    (hr : run step s es = some s') : inv s' := by
  induction es generalizing s with
  | nil =>
    obtain rfl := Option.some.inj hr
    exact hi
  | cons e es ih =>
    obtain ⟨mid, hs, hr⟩ := run_cons_eq_some.mp hr
    obtain ⟨hc, hm⟩ := (runMeets_cons hs).mp hm
    exact ih (hstep s e mid hi hc hs) hm hr

theorem run_relation {inv : State → Prop} {rel : State → State → Prop} (hrefl : ∀ s, rel s s)
    (htrans : ∀ s t u, rel s t → rel t u → rel s u)
    (hstep : ∀ s e s', inv s → cond s e → step s e = some s' → inv s' ∧ rel s s')
    {s s' : State} {es : List Event} (hi : inv s) (hm : RunMeets step cond s es)
    (hr : run step s es = some s') : rel s s' := by
  refine (@run_invariant _ _ step cond (fun x => inv x ∧ rel s x) ?_ s s' es ⟨hi, hrefl s⟩ hm hr).2
  intro x e x' h hc hs
  obtain ⟨hnext, hrel⟩ := hstep x e x' h.1 hc hs
  exact ⟨hnext, htrans s x x' h.2 hrel⟩

theorem RunMeets.split {s mid : State} {es es' : List Event} (h : RunMeets step cond s (es ++ es'))
    (hr : run step s es = some mid) : RunMeets step cond s es ∧ RunMeets step cond mid es' := by
  induction es generalizing s with
  | nil =>
    obtain rfl := Option.some.inj hr
    exact ⟨trivial, h⟩
  | cons e es ih =>
    obtain ⟨next, hs, hr⟩ := run_cons_eq_some.mp hr
    obtain ⟨hc, hm⟩ := (runMeets_cons hs).mp h
    obtain ⟨hleft, hright⟩ := ih hm hr
    exact ⟨(runMeets_cons hs).mpr ⟨hc, hleft⟩, hright⟩

theorem runMeets_of_invariant {inv : State → Prop} {cond' : State → Event → Prop}
    (hstep : ∀ s e s', inv s → cond s e → step s e = some s' → inv s')
    (hcond : ∀ s e, inv s → cond s e → cond' s e) {s : State} {es : List Event} (hi : inv s)
    (hm : RunMeets step cond s es) : RunMeets step cond' s es := by
  induction es generalizing s with
  | nil => trivial
  | cons e es ih =>
    obtain ⟨hc, hm⟩ := hm
    refine ⟨hcond s e hi hc, ?_⟩
    cases hs : step s e with
    | none => trivial
    | some mid =>
      rw [hs] at hm
      exact ih (hstep s e mid hi hc hs) hm

theorem RunMeets.mono {cond' : State → Event → Prop} (h : ∀ s e, cond s e → cond' s e) {s : State}
    {es : List Event} (hm : RunMeets step cond s es) : RunMeets step cond' s es :=
  @runMeets_of_invariant _ _ _ _ (fun _ => True) _ (fun _ _ _ hi _ _ => hi) (fun s e _ => h s e) s es trivial hm

theorem run_invariant_always {inv : State → Prop} (hstep : ∀ s e s', inv s → step s e = some s' → inv s')
    {s s' : State} {es : List Event} (hi : inv s) (hr : run step s es = some s') : inv s' :=
  run_invariant (fun s e s' hi _ hs => hstep s e s' hi hs) hi (runMeets_true s es) hr

end Rules

end PrivaCloud.Framework
