import Mathlib.Data.List.AList
import Mathlib.Data.List.Perm.Subperm
import Mathlib.Tactic.Common

/-!
# Dictionaries keyed by value

Association lists stand for insertion-ordered dictionaries, newest entry first. The one
operation that Mathlib lacks is the removal of every key that holds a given value.
-/

namespace PrivaCloud.Framework

-- the keys of most dictionaries: one instance of each for every module
instance lawfulBEqText : LawfulBEq (List Char) := inferInstance

instance lawfulBEqMember : LawfulBEq (Option String) := inferInstance

/-- A dictionary from `κ` to `ν`. -/
abbrev Dict (κ ν : Type) := AList (fun _ : κ => ν)

namespace Dict

variable {κ ν : Type}

def values (d : Dict κ ν) : List ν := d.entries.map (·.2)

theorem mem_values [DecidableEq κ] {d : Dict κ ν} {v : ν} : v ∈ d.values ↔ ∃ k, d.lookup k = some v := by
  simp only [values, List.mem_map]
  constructor
  · rintro ⟨⟨k, w⟩, hm, rfl⟩
    exact ⟨k, AList.mem_lookup_iff.mpr hm⟩
  · rintro ⟨k, hk⟩
    exact ⟨⟨k, v⟩, AList.mem_lookup_iff.mp hk, rfl⟩

/-- An entry that is there is written in its place, and a new one comes last. -/
def set [DecidableEq κ] (d : Dict κ ν) (k : κ) (v : ν) : Dict κ ν := if k ∈ d then d.replace k v else d.insert k v

theorem dlookup_kreplace [DecidableEq κ] (k k' : κ) (v : ν) (l : List (Sigma fun _ : κ => ν)) (h : k ∈ l.keys) :
    (l.kreplace k v).dlookup k' = if k' = k then some v else l.dlookup k' := by
  induction l with
  | nil => cases h
  | cons e l ih =>
    obtain ⟨a, b⟩ := e
    by_cases ha : k = a
    · subst ha
      have hkr : List.kreplace k v (⟨k, b⟩ :: l) = ⟨k, v⟩ :: l := by
        exact List.lookmap_cons_some _ _ (if_pos rfl)
      rw [hkr]
      by_cases hk : k' = k
      · rw [if_pos hk, hk, List.dlookup_cons_eq]
      · rw [if_neg hk, List.dlookup_cons_ne _ _ hk, List.dlookup_cons_ne _ _ hk]
    · have hkr : List.kreplace k v (⟨a, b⟩ :: l) = ⟨a, b⟩ :: List.kreplace k v l := by
        exact List.lookmap_cons_none _ _ (if_neg ha)
      have hl : k ∈ l.keys := (List.mem_cons.mp h).resolve_left ha
      rw [hkr]
      by_cases hk : k' = a
      · rw [hk, List.dlookup_cons_eq, List.dlookup_cons_eq, if_neg fun hc => ha hc.symm]
      · rw [List.dlookup_cons_ne _ _ hk, List.dlookup_cons_ne _ _ hk, ih hl]

theorem lookup_set [DecidableEq κ] (d : Dict κ ν) (k k' : κ) (v : ν) :
    (d.set k v).lookup k' = if k' = k then some v else d.lookup k' := by
  unfold set
  split
  · rename_i hk
    exact dlookup_kreplace k k' v d.entries hk
  · split
    · rename_i hk
      rw [hk, AList.lookup_insert]
    · rename_i hk
      exact AList.lookup_insert_ne hk

/-- Remove every key that holds `v`. -/
def popValue [DecidableEq ν] (d : Dict κ ν) (v : ν) : Dict κ ν where
  entries := d.entries.filter (fun e => e.2 ≠ v)
  nodupKeys := d.nodupKeys.sublist List.filter_sublist

theorem lookup_popValue [DecidableEq κ] [DecidableEq ν] {d : Dict κ ν} {v w : ν} {k : κ} :
    (d.popValue v).lookup k = some w ↔ d.lookup k = some w ∧ w ≠ v := by
  have hl (e : Dict κ ν) : e.lookup k = some w ↔ (⟨k, w⟩ : Sigma fun _ : κ => ν) ∈ e.entries :=
    AList.mem_lookup_iff
  rw [hl, hl]
  simp [popValue]

theorem length_popValue_le [DecidableEq ν] (d : Dict κ ν) (v : ν) :
    (d.popValue v).entries.length ≤ d.entries.length := List.length_filter_le _ _

theorem length_popValue_lt [DecidableEq κ] [DecidableEq ν] {d : Dict κ ν} {v : ν} {k : κ}
    (h : d.lookup k = some v) : (d.popValue v).entries.length < d.entries.length := by
  apply List.length_filter_lt_length_iff_exists.mpr
  refine ⟨⟨k, v⟩, ?_, ?_⟩
  · exact AList.mem_lookup_iff.mp h
  · simp

theorem length_insert_of_lookup [DecidableEq κ] {d : Dict κ ν} {k : κ} (v : ν)
    (h : d.lookup k = none) : (d.insert k v).entries.length = d.entries.length + 1 := by
  rw [AList.entries_insert_of_notMem (AList.lookup_eq_none.mp h), List.length_cons]

theorem length_erase_of_lookup [DecidableEq κ] {d : Dict κ ν} {k : κ} {v : ν}
    (h : d.lookup k = some v) : (d.erase k).entries.length + 1 = d.entries.length := by
  have hmem : k ∈ d.keys := AList.lookup_isSome.mp (by rw [h]; rfl)
  have hlen : (d.erase k).keys.length = (d.keys.erase k).length := by rw [AList.keys_erase]
  rw [List.length_erase_of_mem hmem] at hlen
  have hpos := List.length_pos_of_mem hmem
  simp only [AList.keys, List.keys, List.length_map] at hlen hpos
  omega

/-- Remove every key that holds one of `vs`. -/
def popValues [DecidableEq ν] (d : Dict κ ν) (vs : List ν) : Dict κ ν := vs.foldl popValue d

theorem lookup_popValues [DecidableEq κ] [DecidableEq ν] {d : Dict κ ν} {vs : List ν} {w : ν}
    {k : κ} : (d.popValues vs).lookup k = some w ↔ d.lookup k = some w ∧ w ∉ vs := by
  induction vs generalizing d with
  | nil => simp [popValues]
  | cons v vs ih =>
    have h := ih (d := d.popValue v)
    simp only [popValues, List.foldl_cons] at h ⊢
    rw [h, lookup_popValue, List.mem_cons, not_or, and_assoc]

def filterValues (p : ν → Bool) (d : Dict κ ν) : Dict κ ν where
  entries := d.entries.filter (fun e => p e.2)
  nodupKeys := d.nodupKeys.sublist List.filter_sublist

theorem lookup_filterValues [DecidableEq κ] {p : ν → Bool} {d : Dict κ ν} {k : κ} {w : ν} :
    (d.filterValues p).lookup k = some w ↔ d.lookup k = some w ∧ p w = true := by
  have hl (e : Dict κ ν) : e.lookup k = some w ↔ (⟨k, w⟩ : Sigma fun _ : κ => ν) ∈ e.entries :=
    AList.mem_lookup_iff
  rw [hl, hl]
  simp [filterValues]

def mapValues (f : ν → ν) (d : Dict κ ν) : Dict κ ν where
  entries := d.entries.map fun e => ⟨e.1, f e.2⟩
  nodupKeys := by
    have hkeys : (d.entries.map fun e => (⟨e.1, f e.2⟩ : Sigma fun _ : κ => ν)).keys = d.entries.keys := by
      simp [List.keys]
    rw [List.NodupKeys, hkeys]
    exact d.nodupKeys

theorem lookup_mapValues [DecidableEq κ] (f : ν → ν) (d : Dict κ ν) (k : κ) :
    (d.mapValues f).lookup k = (d.lookup k).map f := by
  apply Option.ext
  intro w
  have hl (e : Dict κ ν) (v : ν) : e.lookup k = some v ↔ (⟨k, v⟩ : Sigma fun _ : κ => ν) ∈ e.entries :=
    AList.mem_lookup_iff
  rw [Option.map_eq_some_iff, hl]
  constructor
  · intro hm
    obtain ⟨e, he, heq⟩ := List.mem_map.mp hm
    cases heq
    exact ⟨e.2, (hl d _).mpr he, rfl⟩
  · rintro ⟨v, hv, rfl⟩
    exact List.mem_map.mpr ⟨⟨k, v⟩, (hl d v).mp hv, rfl⟩

end Dict

section Assign

variable {κ ν : Type} [DecidableEq κ]

def getValue : List (κ × ν) → κ → Option ν
  | [], _ => none
  | e :: d, k => if k = e.1 then some e.2 else getValue d k

/-- Assign a key; one that is there keeps its place. -/
def assign : List (κ × ν) → κ → ν → List (κ × ν)
  | [], k, v => [(k, v)]
  | e :: d, k, v => if e.1 = k then (k, v) :: d else e :: assign d k v

def assignAll (d : List (κ × ν)) (es : List (κ × ν)) : List (κ × ν) :=
  es.foldl (fun d e => assign d e.1 e.2) d

def lastUnder (es : List (κ × ν)) (k : κ) : Option ν := getValue es.reverse k

theorem getValue_append (d d' : List (κ × ν)) (k : κ) :
    getValue (d ++ d') k = (getValue d k).or (getValue d' k) := by
  induction d with
  | nil => rfl
  | cons e d ih =>
    rw [List.cons_append, getValue, getValue, ih]
    split <;> rfl

theorem getValue_mem {d : List (κ × ν)} {k : κ} {v : ν} (h : getValue d k = some v) : (k, v) ∈ d := by
  induction d with
  | nil => cases h
  | cons e d ih =>
    rw [getValue] at h
    split at h
    · rename_i hk
      cases h
      rw [hk]
      exact List.mem_cons_self
    · exact List.mem_cons_of_mem _ (ih h)

theorem getValue_eq_none {d : List (κ × ν)} {k : κ} (h : k ∉ d.map Prod.fst) : getValue d k = none := by
  cases hv : getValue d k with
  | none => rfl
  | some v => exact absurd (List.mem_map_of_mem (getValue_mem hv)) h

theorem getValue_filterMap {α : Type} {key : α → κ} (val : α → Option ν) {l : List α}
    (hnodup : (l.map key).Nodup) {a : α} (ha : a ∈ l) :
    getValue (l.filterMap fun a => (val a).map fun v => (key a, v)) (key a) = val a := by
  induction l with
  | nil => cases ha
  | cons b l ih =>
    rw [List.map_cons, List.nodup_cons] at hnodup
    rcases List.mem_cons.mp ha with rfl | ha
    · cases hval : val a with
      | some v => rw [List.filterMap_cons_some (by rw [hval]; rfl), getValue, if_pos rfl]
      | none =>
        rw [List.filterMap_cons_none (by rw [hval]; rfl)]
        apply getValue_eq_none
        intro hmem
        obtain ⟨e, he, hkey⟩ := List.mem_map.mp hmem
        obtain ⟨b, hb, heq⟩ := List.mem_filterMap.mp he
        obtain ⟨v, -, rfl⟩ := Option.map_eq_some_iff.mp heq
        exact hnodup.1 (hkey ▸ List.mem_map_of_mem hb)
    · have hne : key a ≠ key b := fun hk => hnodup.1 (hk ▸ List.mem_map_of_mem ha)
      cases hval : val b with
      | some v =>
        rw [List.filterMap_cons_some (by rw [hval]; rfl), getValue, if_neg hne, ih hnodup.2 ha]
      | none => rw [List.filterMap_cons_none (by rw [hval]; rfl), ih hnodup.2 ha]

theorem lastUnder_mem {es : List (κ × ν)} {k : κ} {v : ν} (h : lastUnder es k = some v) :
    (k, v) ∈ es := List.mem_reverse.mp (getValue_mem h)

theorem getValue_assign (d : List (κ × ν)) (k k' : κ) (v : ν) :
    getValue (assign d k v) k' = if k' = k then some v else getValue d k' := by
  induction d with
  | nil => rfl
  | cons e d ih =>
    rw [assign, getValue]
    by_cases he : e.1 = k
    · rw [if_pos he, getValue, he]
      by_cases h : k' = k
      · rw [if_pos h, if_pos h]
      · rw [if_neg h, if_neg h, if_neg h]
    · rw [if_neg he, getValue, ih]
      by_cases h : k' = e.1
      · have hk : k' ≠ k := fun hk => he (h.symm.trans hk)
        rw [if_pos h, if_pos h, if_neg hk]
      · rw [if_neg h, if_neg h]

theorem getValue_filter_ne (d : List (κ × ν)) (k k' : κ) :
    getValue (d.filter (·.1 ≠ k)) k' = if k' = k then none else getValue d k' := by
  induction d with
  | nil => simp [getValue]
  | cons e d ih =>
    by_cases he : e.1 = k
    · rw [List.filter_cons_of_neg (by simpa using he), ih]
      split
      · rfl
      · rename_i hk
        rw [getValue, if_neg]
        rintro rfl
        exact hk he
    · rw [List.filter_cons_of_pos (by simpa using he), getValue, getValue, ih]
      by_cases hk : k' = e.1
      · rw [if_pos hk, if_neg, if_pos hk]
        rintro rfl
        exact he hk.symm
      · rw [if_neg hk, if_neg hk]

theorem getValue_assignAll (d es : List (κ × ν)) (k : κ) :
    getValue (assignAll d es) k = (lastUnder es k).or (getValue d k) := by
  induction es generalizing d with
  | nil => simp [assignAll, lastUnder, getValue]
  | cons e es ih =>
    have hstep := ih (assign d e.1 e.2)
    simp only [assignAll, List.foldl_cons] at hstep ⊢
    rw [hstep, getValue_assign]
    unfold lastUnder
    rw [List.reverse_cons, getValue_append, getValue, getValue, Option.or_assoc]
    by_cases h : k = e.1
    · rw [if_pos h, if_pos h, Option.some_or]
    · rw [if_neg h, if_neg h, Option.none_or]

theorem assign_of_notMem {d : List (κ × ν)} {k : κ} (h : k ∉ d.map Prod.fst) (v : ν) :
    assign d k v = d ++ [(k, v)] := by
  induction d with
  | nil => rfl
  | cons e d ih =>
    rw [List.map_cons, List.mem_cons, not_or] at h
    rw [assign, if_neg (fun he => h.1 he.symm), ih h.2, List.cons_append]

theorem mem_keys_assign (d : List (κ × ν)) (k k' : κ) (v : ν) :
    k' ∈ (assign d k v).map Prod.fst ↔ k' = k ∨ k' ∈ d.map Prod.fst := by
  induction d with
  | nil => simp [assign]
  | cons e d ih =>
    rw [assign]
    split
    · rename_i he
      simp [he]
    · rw [List.map_cons, List.mem_cons, ih, List.map_cons, List.mem_cons]
      exact or_left_comm

theorem nodup_keys_assign {d : List (κ × ν)} (h : (d.map Prod.fst).Nodup) (k : κ) (v : ν) :
    ((assign d k v).map Prod.fst).Nodup := by
  induction d with
  | nil => exact List.nodup_singleton k
  | cons e d ih =>
    rw [List.map_cons, List.nodup_cons] at h
    rw [assign]
    split
    · rename_i he
      rw [List.map_cons, List.nodup_cons, ← he]
      exact h
    · rename_i he
      rw [List.map_cons, List.nodup_cons, mem_keys_assign]
      exact ⟨fun hmem => hmem.elim he h.1, ih h.2⟩

theorem snd_of_mem_assign {d : List (κ × ν)} {k : κ} {v : ν} {e : κ × ν} (h : e ∈ assign d k v) :
    e.2 = v ∨ e ∈ d := by
  induction d with
  | nil =>
    rw [List.mem_singleton.mp h]
    exact .inl rfl
  | cons e' d ih =>
    rw [assign] at h
    split at h
    · rcases List.mem_cons.mp h with rfl | h
      · exact .inl rfl
      · exact .inr (List.mem_cons_of_mem _ h)
    · rcases List.mem_cons.mp h with rfl | h
      · exact .inr List.mem_cons_self
      · exact (ih h).imp_right (List.mem_cons_of_mem _)

theorem getValue_isSome {d : List (κ × ν)} {k : κ} (h : k ∈ d.map Prod.fst) : ∃ v, getValue d k = some v := by
  induction d with
  | nil => cases h
  | cons e d ih =>
    rw [getValue]
    split
    · exact ⟨e.2, rfl⟩
    · rename_i hne
      rw [List.map_cons, List.mem_cons] at h
      exact ih (h.resolve_left hne)

theorem lastUnder_of_forall {es : List (κ × ν)} {k : κ} {v : ν} (hmem : (k, v) ∈ es)
    (hall : ∀ e ∈ es, e.1 = k → e.2 = v) : lastUnder es k = some v := by
  obtain ⟨w, hw⟩ := getValue_isSome (List.mem_map_of_mem (List.mem_reverse.mpr hmem))
  exact hw.trans (congrArg some (hall _ (lastUnder_mem hw) rfl))

theorem head?_assign (d : List (κ × ν)) (k : κ) (v : ν) :
    (assign d k v).head?.map Prod.fst = ((d.head?.map Prod.fst).or (some k)) := by
  cases d with
  | nil => rfl
  | cons e d =>
    rw [assign]
    split
    · rename_i he
      simp [he]
    · simp

theorem head?_assignAll (d es : List (κ × ν)) : (assignAll d es).head?.map Prod.fst =
      (d.head?.map Prod.fst).or (es.head?.map Prod.fst) := by
  induction es generalizing d with
  | nil => simp [assignAll]
  | cons e es ih =>
    have hstep := ih (assign d e.1 e.2)
    simp only [assignAll, List.foldl_cons] at hstep ⊢
    rw [hstep, head?_assign]
    cases d.head? <;> simp

theorem assignAll_nil_iff (es : List (κ × ν)) : assignAll [] es = [] ↔ es = [] := by
  have hfirst := head?_assignAll [] es
  cases es with
  | nil => simp [assignAll]
  | cons e es =>
    simp only [reduceCtorEq, iff_false]
    intro hnil
    simp [hnil] at hfirst

theorem first_assignAll (es : List (κ × ν)) :
    (assignAll [] es).head?.map Prod.snd = es.head?.bind fun e => lastUnder es e.1 := by
  have hfirst := head?_assignAll [] es
  cases hall : assignAll [] es with
  | nil =>
    rw [(assignAll_nil_iff es).mp hall]
    rfl
  | cons entry d =>
    cases es with
    | nil => cases hall
    | cons e es =>
      rw [hall] at hfirst
      have hkey : entry.1 = e.1 := by simpa using hfirst
      have hvalue := getValue_assignAll [] (e :: es) e.1
      rw [hall, getValue] at hvalue
      simpa [getValue, hkey] using hvalue

end Assign

/-- An optional string as it counts in a condition: the empty string counts as absent. -/
def truthy : Option String → Option String
  | none => none
  | some s => if s = "" then none else some s

theorem truthy_ne_empty {o : Option String} {s : String} (h : truthy o = some s) : s ≠ "" := by
  cases o with
  | none => simp [truthy] at h
  | some t =>
    simp only [truthy] at h
    split at h
    · cases h
    · cases h; assumption

@[simp] theorem truthy_none : truthy none = none := rfl

theorem truthy_some {s : String} (h : s ≠ "") : truthy (some s) = some s := by
  simp [truthy, h]

end PrivaCloud.Framework
