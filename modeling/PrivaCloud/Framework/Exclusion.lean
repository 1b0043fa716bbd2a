import Mathlib.Logic.Function.Basic
import Mathlib.Order.Defs.Unbundled

/-!
# Exclusive claims

Claimants hold resources, and no two of them may hold resources that conflict. A claim can be given
up, taken when nothing conflicts with it, or handed over from one claimant to another.
-/

namespace PrivaCloud.Framework

variable {ι σ : Type*}

/-- No two claimants hold resources that conflict. -/
def Exclusive (conflict : σ → σ → Prop) (claims : ι → Option σ) : Prop :=
  ∀ i j a b, i ≠ j → claims i = some a → claims j = some b → ¬conflict a b

section Rules

variable {conflict : σ → σ → Prop} {claims claims' : ι → Option σ}

theorem Exclusive.relabel (h : Exclusive conflict claims) (f : ι → ι)
    (hf : ∀ i a, claims' i = some a → claims (f i) = some a)
    (hinj : ∀ i j a b, claims' i = some a → claims' j = some b → f i = f j → i = j) :
    Exclusive conflict claims' := by
  intro i j a b hne hi hj
  apply h (f i) (f j) a b
  · intro he
    exact hne (hinj i j a b hi hj he)
  · exact hf i a hi
  · exact hf j b hj

theorem Exclusive.mono (h : Exclusive conflict claims)
    (hs : ∀ i a, claims' i = some a → claims i = some a) : Exclusive conflict claims' :=
  h.relabel id hs fun _ _ _ _ _ _ he => he

/-- Claimant `i` hands its claim over to `j`. -/
theorem Exclusive.handOver [DecidableEq ι] (h : Exclusive conflict claims) {i j : ι}
    (hi : claims' i = none) (hj : ∀ a, claims' j = some a → claims i = some a)
    (hs : ∀ k a, k ≠ i → k ≠ j → claims' k = some a → claims k = some a) :
    Exclusive conflict claims' := by
  have hni {k : ι} {a : σ} (hk : claims' k = some a) : k ≠ i := by
    rintro rfl
    rw [hi] at hk
    cases hk
  refine h.relabel (Function.update id j i) ?_ ?_
  · intro k a hk
    by_cases he : k = j
    · subst he
      rw [Function.update_self]
      exact hj a hk
    · rw [Function.update_of_ne he]
      exact hs k a (hni hk) he hk
  · intro k l a b hk hl he
    by_cases hkj : k = j <;> by_cases hlj : l = j
    · rw [hkj, hlj]
    · rw [hkj, Function.update_self, Function.update_of_ne hlj] at he
      exact absurd he.symm (hni hl)
    · rw [hlj, Function.update_self, Function.update_of_ne hkj] at he
      exact absurd he (hni hk)
    · rwa [Function.update_of_ne hkj, Function.update_of_ne hlj] at he

theorem Exclusive.take [Std.Symm conflict] (h : Exclusive conflict claims) (i : ι)
    (hi : ∀ a, claims' i = some a → ∀ j b, j ≠ i → claims j = some b → ¬conflict a b)
    (hs : ∀ k a, k ≠ i → claims' k = some a → claims k = some a) : Exclusive conflict claims' := by
  intro k l a b hne hk hl
  by_cases hki : k = i <;> by_cases hli : l = i
  · exact absurd (hki.trans hli.symm) hne
  · subst hki
    exact hi a hk l b hli (hs l b hli hl)
  · subst hli
    exact fun hc => hi b hl k a hki (hs k a hki hk) (Std.Symm.symm a b hc)
  · exact h k l a b hne (hs k a hki hk) (hs l b hli hl)

end Rules

end PrivaCloud.Framework
