import Mathlib.Data.List.Nodup
import Mathlib.Tactic.Common

/-!
# What is received and not yet settled

Items with a key, in the order in which they came: one that comes again is not taken twice, and a key that is
settled is taken out.
-/

namespace PrivaCloud.Framework

section Outstanding

variable {α κ : Type*} [DecidableEq κ] (key : α → κ)

def receive (l : List α) (x : α) : List α := if key x ∈ l.map key then l else l ++ [x]

def settle (l : List α) (k : κ) : List α := l.filter fun x => key x ≠ k

variable {key}

variable {l : List α}

theorem nodup_receive (h : (l.map key).Nodup) (x : α) : ((receive key l x).map key).Nodup := by
  unfold receive
  split
  · exact h
  · rename_i hnew
    rw [List.map_append, List.nodup_append]
    refine ⟨h, List.nodup_singleton _, ?_⟩
    intro k hk k' hk' heq
    rw [List.map_singleton, List.mem_singleton] at hk'
    exact hnew (hk' ▸ heq ▸ hk)

theorem nodup_settle (h : (l.map key).Nodup) (k : κ) : ((settle key l k).map key).Nodup :=
  h.sublist (List.filter_sublist.map key)

variable {x : α}

theorem mem_settle {k : κ} : x ∈ settle key l k ↔ x ∈ l ∧ key x ≠ k := by
  simp [settle, List.mem_filter]

theorem filter_receive_neg {p : α → Bool} (hp : p x = false) :
    (receive key l x).filter p = l.filter p := by
  unfold receive
  split
  · rfl
  · rw [List.filter_append, List.filter_cons_of_neg (by simp [hp]), List.filter_nil, List.append_nil]

theorem filter_receive_pos {p : α → Bool} (hp : p x = true)
    (hone : ∀ y ∈ l, key y = key x → y = x) : (receive key l x).filter p = receive key (l.filter p) x := by
  have hmem : key x ∈ l.map key ↔ key x ∈ (l.filter p).map key := by
    constructor
    · intro h
      obtain ⟨y, hy, hkey⟩ := List.mem_map.mp h
      obtain rfl := hone y hy hkey
      exact List.mem_map_of_mem (List.mem_filter.mpr ⟨hy, hp⟩)
    · intro h
      obtain ⟨y, hy, hkey⟩ := List.mem_map.mp h
      exact hkey ▸ List.mem_map_of_mem (List.mem_filter.mp hy).1
  unfold receive
  by_cases h : key x ∈ l.map key
  · rw [if_pos h, if_pos (hmem.mp h)]
  · rw [if_neg h, if_neg fun h' => h (hmem.mpr h'), List.filter_append, List.filter_cons_of_pos hp, List.filter_nil]

theorem filter_settle (l : List α) (k : κ) (p : α → Bool) :
    (settle key l k).filter p = settle key (l.filter p) k := by
  simp only [settle, List.filter_filter]
  apply List.filter_congr
  intro x _
  exact Bool.and_comm _ _

theorem settle_head (h : ((x :: l).map key).Nodup) : settle key (x :: l) (key x) = l := by
  rw [settle, List.filter_cons_of_neg (by simp), List.filter_eq_self]
  intro y hy
  have hne : key x ≠ key y := by
    intro heq
    exact (List.nodup_cons.mp h).1 (heq ▸ List.mem_map_of_mem hy)
  simpa using hne.symm

theorem settle_of_notMem {k : κ} (h : k ∉ l.map key) : settle key l k = l := by
  rw [settle, List.filter_eq_self]
  intro y hy
  have hne : key y ≠ k := by
    rintro rfl
    exact h (List.mem_map_of_mem hy)
  simpa using hne

end Outstanding

end PrivaCloud.Framework
