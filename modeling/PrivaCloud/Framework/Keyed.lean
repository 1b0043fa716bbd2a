import Mathlib.Tactic.Common

/-!
# Lists in strictly increasing key order

A sequence-numbered log is a list whose keys strictly increase, so that windows of it can be
written as filters on the key. The lemmas say how such windows are cut and joined.
-/

namespace PrivaCloud.Framework

variable {α : Type*} {key : α → Nat}

def Keyed (key : α → Nat) (l : List α) : Prop := l.Pairwise (fun a b => key a < key b)

variable {l rest : List α}

theorem Keyed.filter (h : Keyed key l) (p : α → Bool) : Keyed key (l.filter p) :=
  List.Pairwise.filter p h

variable {e : α}

theorem Keyed.append_singleton (h : Keyed key l)
    (he : ∀ x ∈ l, key x < key e) : Keyed key (l ++ [e]) := by
  refine List.pairwise_append.mpr ⟨h, List.pairwise_singleton _ _, ?_⟩
  intro x hx y hy
  rw [List.mem_singleton.mp hy]
  exact he x hx

theorem Keyed.head_lt (h : Keyed key (e :: rest)) {x : α}
    (hx : x ∈ rest) : key e < key x :=
  (List.pairwise_cons.mp h).1 x hx

theorem Keyed.le_getLast (h : Keyed key l) (he : l.getLast? = some e) {x : α}
    (hx : x ∈ l) : key x ≤ key e := by
  obtain ⟨front, rfl⟩ := List.getLast?_eq_some_iff.mp he
  rcases List.mem_append.mp hx with hx | hx
  · have := (List.pairwise_append.mp h).2.2 x hx e (by simp)
    omega
  · obtain rfl := List.mem_singleton.mp hx
    exact Nat.le_refl _

theorem Keyed.filter_gt_cons (h : Keyed key l) {a : Nat}
    (hw : l.filter (fun x => a < key x) = e :: rest) :
    l.filter (fun x => a < key x && key x ≤ key e) = [e] ∧ l.filter (fun x => key e < key x) = rest := by
  have hk : Keyed key (e :: rest) := hw ▸ h.filter _
  have hae : a < key e := by
    have hm : e ∈ l.filter (fun x => a < key x) := by simp [hw]
    simpa using (List.mem_filter.mp hm).2
  constructor
  · have hsplit : l.filter (fun x => a < key x && key x ≤ key e) =
        (l.filter (fun x => a < key x)).filter (fun x => key x ≤ key e) := by
      rw [List.filter_filter]
      apply List.filter_congr
      intro x _
      exact Bool.and_comm _ _
    rw [hsplit, hw, List.filter_cons_of_pos (by simp)]
    have hnone : rest.filter (fun x => key x ≤ key e) = [] := by
      rw [List.filter_eq_nil_iff]
      intro x hx
      have := hk.head_lt hx
      simp; omega
    rw [hnone]
  · have hsplit : l.filter (fun x => key e < key x) =
        (l.filter (fun x => a < key x)).filter (fun x => key e < key x) := by
      rw [List.filter_filter]
      apply List.filter_congr
      intro x _
      by_cases hx : key e < key x
      · have : a < key x := by omega
        simp [hx, this]
      · simp [hx]
    rw [hsplit, hw, List.filter_cons_of_neg (by simp)]
    rw [List.filter_eq_self]
    intro x hx
    simpa using hk.head_lt hx

theorem Keyed.filter_le_append_gt (h : Keyed key l) (b : Nat) :
    l.filter (fun x => key x ≤ b) ++ l.filter (fun x => b < key x) = l := by
  induction l with
  | nil => rfl
  | cons x l ih =>
    have htail : Keyed key l := (List.pairwise_cons.mp h).2
    by_cases hx : key x ≤ b
    · rw [List.filter_cons_of_pos (by simpa using hx),
        List.filter_cons_of_neg (by simpa using hx), List.cons_append, ih htail]
    · -- every later key is larger still, so the left part is empty
      have hnone : l.filter (fun x => key x ≤ b) = [] := by
        rw [List.filter_eq_nil_iff]
        intro y hy
        have := h.head_lt hy
        simp; omega
      have hall : l.filter (fun x => b < key x) = l := by
        rw [List.filter_eq_self]
        intro y hy
        have := h.head_lt hy
        simp; omega
      rw [List.filter_cons_of_neg (by simpa using hx), hnone,
        List.filter_cons_of_pos (by simp; omega), hall, List.nil_append]

theorem Keyed.filter_join (h : Keyed key l) (p : α → Bool) {a b c : Nat}
    (hab : a ≤ b) (hbc : b ≤ c) :
    l.filter (fun x => a < key x && key x ≤ b && p x) ++
        l.filter (fun x => b < key x && key x ≤ c && p x) =
      l.filter (fun x => a < key x && key x ≤ c && p x) := by
  have hcut := (h.filter (fun x => a < key x && key x ≤ c && p x)).filter_le_append_gt b
  rw [List.filter_filter, List.filter_filter] at hcut
  rw [← hcut]
  congr 1
  · apply List.filter_congr
    intro x _
    by_cases hx : key x ≤ b
    · have : key x ≤ c := by omega
      simp [hx, this]
    · simp [hx]
  · apply List.filter_congr
    intro x _
    by_cases hx : b < key x
    · have : a < key x := by omega
      simp [hx, this]
    · simp [hx]

theorem Keyed.drop_eq_filter (h : Keyed key l) {n : Nat}
    (hd : l.drop n = e :: rest) : l.drop n = l.filter (fun x => key e ≤ key x) := by
  have hl : l = l.take n ++ e :: rest := by rw [← hd, List.take_append_drop]
  have hp := List.pairwise_append.mp (hl ▸ h : Keyed key (l.take n ++ e :: rest))
  conv_rhs => rw [hl, List.filter_append]
  have hbefore : (l.take n).filter (fun x => key e ≤ key x) = [] := by
    rw [List.filter_eq_nil_iff]
    intro x hx
    have := hp.2.2 x hx e (by simp)
    simp; omega
  rw [hbefore, hd, List.nil_append, List.filter_eq_self.mpr]
  intro x hx
  rcases List.mem_cons.mp hx with rfl | hx
  · simp
  · have := Keyed.head_lt hp.2.1 hx
    simp; omega

end PrivaCloud.Framework
