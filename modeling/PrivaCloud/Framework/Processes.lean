import PrivaCloud.Framework.Run

/-!
# Processes over a shared state

A process is spawned by a request and then takes atomic sections that read and write the shared state and its own;
between two of them the shared state may change. Nothing here names a particular program.
-/

namespace PrivaCloud.Framework

/-- The shared state and the processes, in the order in which they were spawned. -/
structure Processes (σ π : Type*) where
  shared : σ
  procs : List π

inductive ProcessEvent (ρ ι ε : Type*)
  | spawn (request : ρ)
  | advance (i : Nat) (input : ι)
  | outside (event : ε)

/-- What a request begins with, what a section does with its input, what the outside does. -/
structure Program (σ π ρ ι ε : Type*) where
  enter : ρ → π
  act : σ → π → ι → Option (σ × π)
  outside : σ → ε → Option σ

namespace Program

variable {σ π ρ ι ε : Type*} (P : Program σ π ρ ι ε)

def step (s : Processes σ π) : ProcessEvent ρ ι ε → Option (Processes σ π)
  | .spawn request => some ⟨s.shared, s.procs ++ [P.enter request]⟩
  | .advance i input =>
    match s.procs[i]? with
    | none => none
    | some p => (P.act s.shared p input).map fun next => ⟨next.1, s.procs.set i next.2⟩
  | .outside event => (P.outside s.shared event).map fun shared => ⟨shared, s.procs⟩

variable {P} {s s' : Processes σ π}

variable {i : Nat}

theorem advance_eq_some {input : ι} (h : P.step s (.advance i input) = some s') :
    ∃ p next, s.procs[i]? = some p ∧ P.act s.shared p input = some next ∧
      s' = ⟨next.1, s.procs.set i next.2⟩ := by
  simp only [step] at h
  cases hp : s.procs[i]? with
  | none =>
    rw [hp] at h
    cases h
  | some p =>
    rw [hp] at h
    obtain ⟨next, hact, hs⟩ := Option.map_eq_some_iff.mp h
    exact ⟨p, next, rfl, hact, hs.symm⟩

theorem outside_eq_some {event : ε} (h : P.step s (.outside event) = some s') :
    ∃ shared, P.outside s.shared event = some shared ∧ s' = ⟨shared, s.procs⟩ := by
  obtain ⟨shared, ho, hs⟩ := Option.map_eq_some_iff.mp h
  exact ⟨shared, ho, hs.symm⟩

variable {p' q : π} {procs : List π}

theorem mem_set_cases (hq : q ∈ procs.set i p') : q = p' ∨ q ∈ procs :=
  (List.mem_or_eq_of_mem_set hq).symm

theorem getElem?_set_cases {j : Nat} (hq : (procs.set i p')[j]? = some q) :
    (j = i ∧ q = p') ∨ (j ≠ i ∧ procs[j]? = some q) := by
  by_cases hij : i = j
  · subst hij
    obtain ⟨hlt, hval⟩ := List.getElem?_eq_some_iff.mp hq
    rw [List.getElem_set_self] at hval
    exact .inl ⟨rfl, hval.symm⟩
  · rw [List.getElem?_set_ne hij] at hq
    exact .inr ⟨fun h => hij h.symm, hq⟩

theorem self_mem_set {p : π} (hp : procs[i]? = some p) : p' ∈ procs.set i p' := by
  obtain ⟨hi, -⟩ := List.getElem?_eq_some_iff.mp hp
  exact List.mem_iff_getElem?.mpr ⟨i, by simp [hi]⟩

theorem mem_set_of_ne {p : π} (hp : procs[i]? = some p)
    (hq : q ∈ procs) (hne : q ≠ p) : q ∈ procs.set i p' := by
  obtain ⟨j, hj⟩ := List.mem_iff_getElem?.mp hq
  have hij : i ≠ j := by
    intro heq
    rw [heq, hj] at hp
    exact hne (Option.some.inj hp)
  exact List.mem_iff_getElem?.mpr ⟨j, by rw [List.getElem?_set_ne hij, hj]⟩

section Local

variable {shared : σ → Prop} {own : σ → π → Prop}
  (cond : Processes σ π → ProcessEvent ρ ι ε → Prop)

/-- The shared invariant, and what every process knows. -/
def Holds (shared : σ → Prop) (own : σ → π → Prop) (s : Processes σ π) : Prop :=
  shared s.shared ∧ ∀ p ∈ s.procs, own s.shared p

/-- A section that keeps the shared invariant, ends in what its process may know next and does not
disturb the others keeps both. -/
theorem Holds.step (hi : Holds shared own s) (event : ProcessEvent ρ ι ε) (hc : cond s event)
    (henter : ∀ s request, Holds shared own s → cond s (.spawn request) → own s.shared (P.enter request))
    (hact : ∀ s i input p next, Holds shared own s → cond s (.advance i input) →
      s.procs[i]? = some p → P.act s.shared p input = some next →
      shared next.1 ∧ own next.1 next.2 ∧ ∀ j q, j ≠ i → s.procs[j]? = some q → own s.shared q → own next.1 q)
    (houtside : ∀ s event σ', Holds shared own s → cond s (.outside event) →
      P.outside s.shared event = some σ' →
      shared σ' ∧ ∀ q ∈ s.procs, own s.shared q → own σ' q)
    (hs : P.step s event = some s') : Holds shared own s' := by
  obtain ⟨hshared, hown⟩ := hi
  cases event with
  | spawn request =>
    cases hs
    refine ⟨hshared, ?_⟩
    intro p hp
    rcases List.mem_append.mp hp with hp | hp
    · exact hown p hp
    · rw [List.mem_singleton.mp hp]
      exact henter s request ⟨hshared, hown⟩ hc
  | advance i input =>
    obtain ⟨p, next, hp, ha, rfl⟩ := advance_eq_some hs
    obtain ⟨hshared', hown', hothers⟩ := hact s i input p next ⟨hshared, hown⟩ hc hp ha
    refine ⟨hshared', ?_⟩
    intro q hq
    obtain ⟨j, hj⟩ := List.mem_iff_getElem?.mp hq
    rcases getElem?_set_cases hj with ⟨-, rfl⟩ | ⟨hne, hj⟩
    · exact hown'
    · exact hothers j q hne hj (hown q (List.mem_of_getElem? hj))
  | outside event =>
    obtain ⟨σ', ho, rfl⟩ := outside_eq_some hs
    obtain ⟨hshared', hothers⟩ := houtside s event σ' ⟨hshared, hown⟩ hc ho
    exact ⟨hshared', fun q hq => hothers q hq (hown q hq)⟩

end Local

end Program

end PrivaCloud.Framework
