import Mathlib.Data.List.Nodup
import Mathlib.Tactic.Common

/-!
# Tables with a primary key

A table is a list of rows in the order of their insertion, no two of which have the same key. A write
says which key it touches, and every other row stays as it was.
-/

namespace PrivaCloud.Framework

structure Table {ρ κ : Type} (key : ρ → κ) where
  rows : List ρ := []
  nodup : (rows.map key).Nodup := by simp

namespace Table

variable {ρ κ : Type} {key : ρ → κ}

@[simps] def empty : Table key := ⟨[], List.nodup_nil⟩

variable {t t' : Table key}

@[ext] theorem ext (h : t.rows = t'.rows) : t = t' := by
  cases t
  cases t'
  cases h
  rfl

variable [DecidableEq κ]

def find? (t : Table key) (k : κ) : Option ρ := t.rows.find? fun r => key r = k

variable {k : κ} {r : ρ}

theorem key_of_find? (h : t.find? k = some r) : key r = k := by
  simpa using List.find?_some h

theorem mem_of_find? (h : t.find? k = some r) : r ∈ t.rows :=
  List.mem_of_find?_eq_some h

theorem find?_of_mem (h : r ∈ t.rows) : t.find? (key r) = some r := by
  obtain ⟨rows, hn⟩ := t
  change r ∈ rows at h
  change rows.find? (fun x => key x = key r) = some r
  induction rows with
  | nil => cases h
  | cons x rows ih =>
    obtain ⟨hx, hn⟩ := List.nodup_cons.mp hn
    by_cases he : key x = key r
    · rw [List.find?_cons_of_pos (by simpa using he)]
      rcases List.mem_cons.mp h with rfl | hr
      · rfl
      · exact absurd (List.mem_map.mpr ⟨r, hr, he.symm⟩) hx
    · rw [List.find?_cons_of_neg (by simpa using he)]
      rcases List.mem_cons.mp h with rfl | hr
      · exact absurd rfl he
      · exact ih hn hr

theorem find?_eq_some : t.find? k = some r ↔ r ∈ t.rows ∧ key r = k := by
  constructor
  · intro h
    exact ⟨mem_of_find? h, key_of_find? h⟩
  · rintro ⟨hr, rfl⟩
    exact find?_of_mem hr

/-- `INSERT`, which fails on a key that is there. -/
def insert (t : Table key) (r : ρ) : Option (Table key) :=
  if h : ∃ x ∈ t.rows, key x = key r then none
  else some
    { rows := t.rows ++ [r]
      nodup := by
        rw [List.map_append, List.map_singleton]
        refine List.nodup_append.mpr ⟨t.nodup, List.nodup_singleton _, ?_⟩
        intro k hk k' hk' heq
        obtain ⟨x, hx, hxk⟩ := List.mem_map.mp hk
        exact h ⟨x, hx, hxk.trans (heq.trans (List.mem_singleton.mp hk'))⟩ }

theorem insert_rows (h : t.insert r = some t') : t'.rows = t.rows ++ [r] := by
  unfold insert at h
  split at h <;> cases h
  rfl

theorem insert_isNone : t.insert r = none ↔ ∃ x, t.find? (key r) = some x := by
  unfold insert
  constructor
  · intro h
    split at h
    · rename_i hx
      obtain ⟨x, hm, hk⟩ := hx
      exact ⟨x, find?_eq_some.mpr ⟨hm, hk⟩⟩
    · cases h
  · rintro ⟨x, hx⟩
    rw [dif_pos ⟨x, mem_of_find? hx, key_of_find? hx⟩]

theorem find?_insert (h : t.insert r = some t') (k : κ) :
    t'.find? k = if key r = k then some r else t.find? k := by
  have hrows := insert_rows h
  split
  · rename_i hk
    rw [find?_eq_some, hrows]
    exact ⟨by simp, hk⟩
  · rename_i hk
    cases hf : t.find? k with
    | none =>
      rw [find?, hrows, List.find?_append]
      have hold : t.rows.find? (fun x => key x = k) = none := hf
      simp [hold, hk]
    | some x =>
      rw [find?_eq_some, hrows]
      exact ⟨List.mem_append_left _ (mem_of_find? hf), key_of_find? hf⟩

def insertNew (t : Table key) (r : ρ) : Table key := (t.insert r).getD t

theorem find?_insertNew (t : Table key) (r : ρ) (k : κ) :
    (t.insertNew r).find? k = (t.find? k).or (if key r = k then some r else none) := by
  unfold insertNew
  cases h : t.insert r with
  | none =>
    obtain ⟨x, hx⟩ := insert_isNone.mp h
    split
    · rename_i hk
      rw [Option.getD_none, ← hk, hx, Option.some_or]
    · rw [Option.getD_none, Option.or_none]
  | some t' =>
    rw [Option.getD_some, find?_insert h]
    split
    · rename_i hk
      cases hold : t.find? k with
      | none => rfl
      | some x =>
        rw [insert_isNone.mpr ⟨x, hk ▸ hold⟩] at h
        cases h
    · rw [Option.or_none]

theorem find?_insertNew_ne_none (t : Table key) (r : ρ) : (t.insertNew r).find? (key r) ≠ none := by
  rw [find?_insertNew, if_pos rfl]
  cases t.find? (key r) <;> simp

theorem find?_insertNew_of_some (t : Table key) (r : ρ) (k : κ) (old : ρ) (h : t.find? k = some old) :
    (t.insertNew r).find? k = some old := by
  rw [find?_insertNew, h, Option.some_or]

/-- `UPDATE` of the row under a key; the columns of an update leave the key alone. -/
def modify (t : Table key) (k : κ) (f : ρ → ρ) (hf : ∀ r, key (f r) = key r) : Table key where
  rows := t.rows.map fun r => if key r = k then f r else r
  nodup := by
    have hkeys : (t.rows.map fun r => if key r = k then f r else r).map key = t.rows.map key := by
      rw [List.map_map]
      apply List.map_congr_left
      intro r _
      simp only [Function.comp_apply]
      split
      · exact hf r
      · rfl
    rw [hkeys]
    exact t.nodup

theorem find?_modify (t : Table key) (k : κ) (f : ρ → ρ) (hf : ∀ r, key (f r) = key r) (k' : κ) :
    (t.modify k f hf).find? k' = if k' = k then (t.find? k).map f else t.find? k' := by
  have hold (r : ρ) (hr : r ∈ t.rows) : (if key r = k then f r else r) ∈ (t.modify k f hf).rows :=
    List.mem_map.mpr ⟨r, hr, rfl⟩
  cases hfind : t.find? k' with
  | some r =>
    obtain ⟨hr, rfl⟩ := find?_eq_some.mp hfind
    split
    · rename_i hk
      have hm := hold r hr
      rw [if_pos hk] at hm
      rw [← hk] at hm ⊢
      rw [hfind, Option.map_some, find?_eq_some]
      exact ⟨hm, hf r⟩
    · rename_i hk
      rw [find?_eq_some]
      have hm := hold r hr
      rw [if_neg hk] at hm
      exact ⟨hm, rfl⟩
  | none =>
    have hnone : (t.modify k f hf).find? k' = none := by
      cases hx : (t.modify k f hf).find? k' with
      | none => rfl
      | some x =>
        obtain ⟨hm, hk⟩ := find?_eq_some.mp hx
        obtain ⟨r, hr, rfl⟩ := List.mem_map.mp hm
        have hkey : key r = k' := by
          rw [← hk]
          split
          · exact (hf r).symm
          · rfl
        rw [find?_eq_some.mpr ⟨hr, hkey⟩] at hfind
        cases hfind
    rw [hnone]
    split
    · rename_i hk
      rw [← hk, hfind]
      rfl
    · rfl

/-- `INSERT .. ON CONFLICT DO UPDATE` with a whole row. -/
def upsert (t : Table key) (r : ρ) : Table key :=
  match t.insert r with
  | some t' => t'
  | none =>
    { rows := t.rows.map fun x => if key x = key r then r else x
      nodup := by
        have hkeys : (t.rows.map fun x => if key x = key r then r else x).map key = t.rows.map key := by
          rw [List.map_map]
          apply List.map_congr_left
          intro x _
          simp only [Function.comp_apply]
          split
          · rename_i hk
            exact hk.symm
          · rfl
        rw [hkeys]
        exact t.nodup }

theorem mem_upsert {x : ρ} : x ∈ (t.upsert r).rows ↔ x = r ∨ x ∈ t.rows ∧ key x ≠ key r := by
  unfold upsert
  split
  · rename_i t' h
    rw [insert_rows h, List.mem_append, List.mem_singleton]
    have hfree (x : ρ) (hx : x ∈ t.rows) : key x ≠ key r := by
      intro hk
      have hn := insert_isNone.mpr ⟨x, find?_eq_some.mpr ⟨hx, hk⟩⟩
      rw [h] at hn
      cases hn
    constructor
    · rintro (hx | hx)
      · exact .inr ⟨hx, hfree x hx⟩
      · exact .inl hx
    · rintro (hx | hx)
      · exact .inr hx
      · exact .inl hx.1
  · rename_i h
    obtain ⟨y, hy⟩ := insert_isNone.mp h
    simp only [List.mem_map]
    constructor
    · rintro ⟨z, hz, rfl⟩
      by_cases hk : key z = key r
      · rw [if_pos hk]
        exact .inl rfl
      · rw [if_neg hk]
        exact .inr ⟨hz, hk⟩
    · rintro (rfl | ⟨hx, hk⟩)
      · exact ⟨y, mem_of_find? hy, if_pos (key_of_find? hy)⟩
      · exact ⟨x, hx, if_neg hk⟩

theorem find?_upsert (t : Table key) (r : ρ) (k : κ) :
    (t.upsert r).find? k = if key r = k then some r else t.find? k := by
  split
  · rename_i hk
    exact find?_eq_some.mpr ⟨mem_upsert.mpr (.inl rfl), hk⟩
  · rename_i hk
    cases hf : t.find? k with
    | some x =>
      obtain ⟨hm, hx⟩ := find?_eq_some.mp hf
      exact find?_eq_some.mpr ⟨mem_upsert.mpr (.inr ⟨hm, fun h => hk (h.symm.trans hx)⟩), hx⟩
    | none =>
      cases hx : (t.upsert r).find? k with
      | none => rfl
      | some x =>
        obtain ⟨hm, hkey⟩ := find?_eq_some.mp hx
        rcases mem_upsert.mp hm with rfl | ⟨hm, -⟩
        · exact absurd hkey hk
        · rw [find?_eq_some.mpr ⟨hm, hkey⟩] at hf
          cases hf

/-- `DELETE` of the rows that are not kept. -/
def filter (t : Table key) (p : ρ → Bool) : Table key where
  rows := t.rows.filter p
  nodup := t.nodup.sublist (List.Sublist.map key List.filter_sublist)

theorem find?_filter (t : Table key) (p : κ → Bool) (k : κ) :
    (t.filter fun r => p (key r)).find? k = if p k then t.find? k else none := by
  cases hf : (t.filter fun r => p (key r)).find? k with
  | some r =>
    obtain ⟨hr, rfl⟩ := find?_eq_some.mp hf
    obtain ⟨hmem, hp⟩ := List.mem_filter.mp hr
    rw [if_pos hp]
    exact (find?_of_mem hmem).symm
  | none =>
    split
    · rename_i hp
      cases hold : t.find? k with
      | none => rfl
      | some r =>
        obtain ⟨hmem, rfl⟩ := find?_eq_some.mp hold
        have hin : r ∈ (t.filter fun r => p (key r)).rows := List.mem_filter.mpr ⟨hmem, hp⟩
        rw [find?_of_mem hin] at hf
        cases hf
    · rfl

def map (t : Table key) (f : ρ → ρ) (hf : ∀ r, key (f r) = key r) : Table key where
  rows := t.rows.map f
  nodup := by
    have hkeys : (t.rows.map f).map key = t.rows.map key := by
      rw [List.map_map]
      exact List.map_congr_left fun r _ => hf r
    rw [hkeys]
    exact t.nodup

theorem find?_map (t : Table key) (f : ρ → ρ) (hf : ∀ r, key (f r) = key r) (k : κ) :
    (t.map f hf).find? k = (t.find? k).map f := by
  change (t.rows.map f).find? _ = (t.rows.find? _).map f
  rw [List.find?_map]
  congr 2
  funext r
  simp [hf]

end Table

end PrivaCloud.Framework
