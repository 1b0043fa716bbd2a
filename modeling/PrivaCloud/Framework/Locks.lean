import PrivaCloud.Framework.Processes

/-!
# Locks of processes

Each process holds at most one lock of a family. A lock that a process holds is taken, and no two
processes hold the same lock. Nothing here names a particular program.
-/

namespace PrivaCloud.Framework

variable {π κ : Type*}

structure Locked (holds : π → Option κ) (taken : κ → Prop) (procs : List π) : Prop where
  taken : ∀ (i : Nat) p a, procs[i]? = some p → holds p = some a → taken a
  apart : ∀ (i j : Nat) p q a, procs[i]? = some p → procs[j]? = some q → holds p = some a →
    holds q = some a → i = j

namespace Locked

variable {holds : π → Option κ} {taken taken' : κ → Prop} {procs : List π} {i : Nat} {p p' : π} {a : κ}

theorem nil : Locked holds taken [] :=
  ⟨by rintro i p a ⟨⟩, by rintro i j p q a ⟨⟩⟩

/-- A process that goes on with what it holds; nothing that is taken is given back. -/
theorem keep (h : Locked holds taken procs) (hp : procs[i]? = some p) (hsame : holds p' = holds p)
    (htaken : ∀ k, taken k → taken' k) : Locked holds taken' (procs.set i p') := by
  have hback (j : Nat) (q : π) (hq : (procs.set i p')[j]? = some q) :
      ∃ q', procs[j]? = some q' ∧ holds q' = holds q := by
    rcases Program.getElem?_set_cases hq with ⟨rfl, rfl⟩ | ⟨-, hq⟩
    · exact ⟨p, hp, hsame.symm⟩
    · exact ⟨q, hq, rfl⟩
  constructor
  · intro j q k hq hk
    obtain ⟨q', hq', hheld⟩ := hback j q hq
    exact htaken k (h.taken j q' k hq' (hheld.trans hk))
  · intro j l q r k hq hr hqk hrk
    obtain ⟨q', hq', hqheld⟩ := hback j q hq
    obtain ⟨r', hr', hrheld⟩ := hback l r hr
    exact h.apart j l q' r' k hq' hr' (hqheld.trans hqk) (hrheld.trans hrk)

theorem acquire (h : Locked holds taken procs) (hfree : ¬ taken a) (hp' : holds p' = some a)
    (htaken : ∀ k, taken k → taken' k) (ha : taken' a) : Locked holds taken' (procs.set i p') := by
  constructor
  · intro j q k hq hk
    rcases Program.getElem?_set_cases hq with ⟨-, rfl⟩ | ⟨-, hq⟩
    · rw [hp'] at hk
      cases hk
      exact ha
    · exact htaken k (h.taken j q k hq hk)
  · intro j l q r k hq hr hqk hrk
    rcases Program.getElem?_set_cases hq with ⟨hj, rfl⟩ | ⟨-, hq'⟩
    · rcases Program.getElem?_set_cases hr with ⟨hl, -⟩ | ⟨-, hr'⟩
      · rw [hj, hl]
      · rw [hp'] at hqk
        cases hqk
        exact absurd (h.taken l r a hr' hrk) hfree
    · rcases Program.getElem?_set_cases hr with ⟨-, rfl⟩ | ⟨-, hr'⟩
      · rw [hp'] at hrk
        cases hrk
        exact absurd (h.taken j q a hq' hqk) hfree
      · exact h.apart j l q r k hq' hr' hqk hrk

theorem release (h : Locked holds taken procs) (hp : procs[i]? = some p) (ha : holds p = some a)
    (hp' : holds p' = none) (htaken : ∀ k, taken k → k ≠ a → taken' k) :
    Locked holds taken' (procs.set i p') := by
  constructor
  · intro j q k hq hk
    rcases Program.getElem?_set_cases hq with ⟨-, rfl⟩ | ⟨hj, hq⟩
    · rw [hp'] at hk
      cases hk
    · refine htaken k (h.taken j q k hq hk) ?_
      rintro rfl
      exact hj (h.apart j i q p k hq hp hk ha)
  · intro j l q r k hq hr hqk hrk
    rcases Program.getElem?_set_cases hq with ⟨-, rfl⟩ | ⟨-, hq⟩
    · rw [hp'] at hqk
      cases hqk
    · rcases Program.getElem?_set_cases hr with ⟨-, rfl⟩ | ⟨-, hr⟩
      · rw [hp'] at hrk
        cases hrk
      · exact h.apart j l q r k hq hr hqk hrk

theorem spawn (h : Locked holds taken procs) (hp' : holds p' = none) : Locked holds taken (procs ++ [p']) := by
  have hback (j : Nat) (q : π) (k : κ) (hq : (procs ++ [p'])[j]? = some q) (hk : holds q = some k) :
      procs[j]? = some q := by
    rw [List.getElem?_append] at hq
    split at hq
    · exact hq
    · rw [List.mem_singleton.mp (List.mem_of_getElem? hq), hp'] at hk
      cases hk
  constructor
  · intro j q k hq hk
    exact h.taken j q k (hback j q k hq hk) hk
  · intro j l q r k hq hr hqk hrk
    exact h.apart j l q r k (hback j q k hq hqk) (hback l r k hr hrk) hqk hrk

theorem other (h : Locked holds taken procs) (hp : procs[i]? = some p) (ha : holds p = some a) {j : Nat} {q : π}
    (hne : j ≠ i) (hq : procs[j]? = some q) : holds q ≠ some a :=
  fun hheld => hne (h.apart j i q p a hq hp hheld ha)

end Locked

end PrivaCloud.Framework
