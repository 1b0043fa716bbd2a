import PrivaCloud.Framework.Run
import PrivaCloud.Web.Runtimes

/-!
# The registry along a run

What is asked of the registry, one thing after another and with any keys: its runtimes stay under their own keys,
its aliases lead to them, and a runtime is found under the keys that it had.
-/

namespace PrivaCloud.Web

open Framework

variable {Sid Data : Type} [DecidableEq Sid] [Inhabited Data]

/-- The functions of `registry.js`, what the stores write to the slices of a runtime, and the clock. -/
inductive RegistryOp (Sid Data : Type)
  | ensureRuntime (key : RuntimeKey Sid)
  | getSlice (key : RuntimeKey Sid)
  | setActiveKey (key : RuntimeKey Sid)
  | newDraftRuntime
  | rekeyRuntime (oldKey sessionId : RuntimeKey Sid)
  | removeRuntime (key : RuntimeKey Sid)
  | evictIfNeeded (cap : Nat)
  | resetAllRuntimes
  | write (o : Nat) (f : SessionRuntime Sid Data → SessionRuntime Sid Data)
  | clock (now : Nat)

/-- The key of a session, or of a draft that the counter has come to. -/
def RuntimeKey.MadeBy (draftCounter : Nat) : RuntimeKey Sid → Prop
  | .draft n => n ≤ draftCounter
  | .session _ => True

instance (draftCounter : Nat) : DecidablePred fun key : RuntimeKey Sid => key.MadeBy draftCounter
  | .draft n => inferInstanceAs (Decidable (n ≤ draftCounter))
  | .session _ => .isTrue trivial

namespace Registry

variable (r : Registry Sid Data)

/-- `rekeyRuntime` onto any key -/
def rekeyOnto (oldKey key : RuntimeKey Sid) : Registry Sid Data :=
  match r.getRuntime oldKey with
  | none => r
  | some o => if (r.object o).key = key then r else r.rekeyed o key

def writeSlices (o : Nat) (f : SessionRuntime Sid Data → SessionRuntime Sid Data) : Registry Sid Data :=
  r.modify o fun rt => { f rt with key := rt.key, lastActiveAt := rt.lastActiveAt }

/-- A slice that is asked for is made by its factory, which leaves the registry alone. -/
def apply : RegistryOp Sid Data → Registry Sid Data
  | .ensureRuntime key => (r.ensureRuntime key).1
  | .getSlice key => (r.ensureRuntime key).1
  | .setActiveKey key => r.setActiveKey key
  | .newDraftRuntime => r.newDraftRuntime
  | .rekeyRuntime oldKey sessionId => r.rekeyOnto oldKey sessionId
  | .removeRuntime key => r.removeRuntime key
  | .evictIfNeeded cap => r.evictIfNeeded cap
  | .resetAllRuntimes => r.clear
  | .write o f => r.writeSlices o f
  | .clock now => { r with now }

def step (op : RegistryOp Sid Data) : Option (Registry Sid Data) := some (r.apply op)

/-- Runtimes are stored under their own keys, the active one among them, and the aliases lead to them. -/
structure WellFormed : Prop where
  keyed : ∀ k o, r.runtimes.lookup k = some o → o < r.objects.length ∧ (r.object o).key = k
  active : ∃ o, r.runtimes.lookup r.activeKey = some o
  aliases : ∀ k, (r.keyAliases.lookup k).isSome → ∃ o, r.runtimes.lookup (r.resolveKey k) = some o
  canonical : ∀ k o, r.runtimes.lookup k = some o → r.keyAliases.lookup k = none

def Minted : RegistryOp Sid Data → Prop
  | .rekeyRuntime oldKey _ => ∀ o ∈ r.getRuntime oldKey, (r.object o).key.MadeBy r.draftCounter
  | _ => True

instance : DecidablePred r.Minted := fun call => by
  cases call <;> dsimp only [Registry.Minted] <;> infer_instance

/-- What carries the rest along, and holds between the steps of an operation too. -/
structure Sound : Prop where
  keyed : ∀ k o, r.runtimes.lookup k = some o → o < r.objects.length ∧ (r.object o).key = k
  targets : ∀ a t, r.keyAliases.lookup a = some t → ∃ o, r.runtimes.lookup t = some o
  canonical : ∀ k o, r.runtimes.lookup k = some o → r.keyAliases.lookup k = none
  minted : ∀ n t, r.keyAliases.lookup (.draft n) = some t → n ≤ r.draftCounter

def Active : Prop := ∃ o, r.runtimes.lookup r.activeKey = some o

variable {r} {k : RuntimeKey Sid} {o : Nat}

namespace Sound

private theorem resolveKey_eq (h : r.Sound) (k : RuntimeKey Sid) : r.resolveKey k = (r.keyAliases.lookup k).getD k := by
  refine followAliases_eq ?_ 6 k
  intro a t ht
  obtain ⟨o, ho⟩ := h.targets a t ht
  exact h.canonical t o ho

private theorem resolveKey_of_alias (h : r.Sound) {k t : RuntimeKey Sid} (hk : r.keyAliases.lookup k = some t) :
    r.resolveKey k = t := by
  rw [h.resolveKey_eq, hk]
  rfl

private theorem resolveKey_of_none (h : r.Sound) (hk : r.keyAliases.lookup k = none) :
    r.resolveKey k = k := by
  rw [h.resolveKey_eq, hk]
  rfl

private theorem getRuntime_of_lookup (h : r.Sound) (hk : r.runtimes.lookup k = some o) :
    r.getRuntime k = some o := by
  rw [getRuntime, h.resolveKey_of_none (h.canonical k o hk), hk]

private theorem lookup_alias_of_getRuntime (h : r.Sound) (hk : r.getRuntime k = none) :
    r.keyAliases.lookup k = none ∧ r.resolveKey k = k := by
  cases halias : r.keyAliases.lookup k with
  | none => exact ⟨rfl, h.resolveKey_of_none halias⟩
  | some t =>
    obtain ⟨o, ho⟩ := h.targets k t halias
    rw [getRuntime, h.resolveKey_of_alias halias, ho] at hk
    cases hk

private theorem wellFormed (h : r.Sound) (ha : r.Active) : r.WellFormed where
  keyed := h.keyed
  active := ha
  aliases k hk := by
    obtain ⟨t, ht⟩ := Option.isSome_iff_exists.mp hk
    rw [h.resolveKey_of_alias ht]
    exact h.targets k t ht
  canonical := h.canonical

private theorem modify (h : r.Sound) (o : Nat) {f : SessionRuntime Sid Data → SessionRuntime Sid Data}
    (hf : ∀ rt, (f rt).key = rt.key) : (r.modify o f).Sound where
  keyed k p hp := by
    obtain ⟨hlt, hkey⟩ := h.keyed k p hp
    refine ⟨by rwa [length_modify], ?_⟩
    rw [object_modify_keeps (·.key) o hf, hkey]
  targets := h.targets
  canonical := h.canonical
  minted := h.minted

theorem register (h : r.Sound) (halias : r.keyAliases.lookup k = none) : (r.register k).Sound where
  keyed k' p hp := by
    rw [Registry.register, Dict.lookup_set] at hp
    split at hp
    · rename_i hk
      cases hp
      refine ⟨by simp [Registry.register], ?_⟩
      rw [object_register_new, hk]
      rfl
    · obtain ⟨hlt, hkey⟩ := h.keyed k' p hp
      refine ⟨?_, by rw [object_register hlt, hkey]⟩
      rw [Registry.register, List.length_append]
      exact Nat.lt_add_right _ hlt
  targets a t ht := by
    obtain ⟨o, ho⟩ := h.targets a t ht
    rw [Registry.register, Dict.lookup_set]
    split
    · exact ⟨_, rfl⟩
    · exact ⟨o, ho⟩
  canonical k' p hp := by
    rw [Registry.register, Dict.lookup_set] at hp
    split at hp
    · rename_i hk
      rw [hk]
      exact halias
    · exact h.canonical k' p hp
  minted := h.minted

private theorem ensureRuntime (h : r.Sound) (k : RuntimeKey Sid) : (r.ensureRuntime k).1.Sound := by
  unfold Registry.ensureRuntime
  split
  · exact h
  · rename_i hnone
    obtain ⟨halias, hsame⟩ := h.lookup_alias_of_getRuntime hnone
    rw [hsame]
    exact h.register halias

private theorem active_ensureRuntime (ha : r.Active) (k : RuntimeKey Sid) : (r.ensureRuntime k).1.Active := by
  obtain ⟨o, ho⟩ := ha
  have hgrows := Grows.ensureRuntime (r := r) k
  refine ⟨o, ?_⟩
  have hactive : (r.ensureRuntime k).1.activeKey = r.activeKey := by
    unfold Registry.ensureRuntime
    split <;> rfl
  rw [hactive]
  exact hgrows.found _ _ ho

theorem setActiveKey (h : r.Sound) (k : RuntimeKey Sid) : (r.setActiveKey k).Sound ∧ (r.setActiveKey k).Active := by
  have hensured := h.ensureRuntime k
  have hfound := getRuntime_ensureRuntime (r := r) k
  obtain ⟨-, hkey⟩ := hensured.keyed _ _ hfound
  have hmodified := hensured.modify (r.ensureRuntime k).2
    (f := fun rt => { rt with lastActiveAt := r.now }) fun _ => rfl
  refine ⟨⟨hmodified.keyed, hmodified.targets, hmodified.canonical, hmodified.minted⟩, (r.ensureRuntime k).2, ?_⟩
  change (r.ensureRuntime k).1.runtimes.lookup ((r.ensureRuntime k).1.object (r.ensureRuntime k).2).key = _
  rw [hkey]
  exact hfound

private theorem counted (h : r.Sound) : Sound { r with draftCounter := r.draftCounter + 1 } where
  keyed := h.keyed
  targets := h.targets
  canonical := h.canonical
  minted n t ht := Nat.le_succ_of_le (h.minted n t ht)

private theorem draft_fresh (h : r.Sound) : r.keyAliases.lookup (.draft (r.draftCounter + 1)) = none := by
  rw [Option.eq_none_iff_forall_ne_some]
  intro t ht
  exact absurd (h.minted _ t ht) (by omega)

private theorem newDraftRuntime (h : r.Sound) : r.newDraftRuntime.Sound ∧ r.newDraftRuntime.Active :=
  (h.counted.register h.draft_fresh).setActiveKey _

private theorem delete (h : r.Sound) (k : RuntimeKey Sid) : (r.delete k).Sound where
  keyed k' p hp := by
    by_cases hk : k' = k
    · rw [hk, Registry.delete, AList.lookup_erase] at hp
      cases hp
    · rw [Registry.delete, AList.lookup_erase_ne hk] at hp
      exact h.keyed k' p hp
  targets a t ht := by
    obtain ⟨ht, hne⟩ := Dict.lookup_popValue.mp ht
    rw [Registry.delete, AList.lookup_erase_ne hne]
    exact h.targets a t ht
  canonical k' p hp := by
    rw [Option.eq_none_iff_forall_ne_some]
    intro t ht
    have ht := (Dict.lookup_popValue.mp ht).1
    by_cases hk : k' = k
    · rw [hk, Registry.delete, AList.lookup_erase] at hp
      cases hp
    · rw [Registry.delete, AList.lookup_erase_ne hk] at hp
      exact absurd ((h.canonical k' p hp).symm.trans ht) (by simp)
  minted n t ht := h.minted n t (Dict.lookup_popValue.mp ht).1

theorem empty (r : Registry Sid Data) : ({ r with runtimes := ∅, keyAliases := ∅ } : Registry Sid Data).Sound where
  keyed _ _ hk := by cases hk
  targets _ _ ht := by cases ht
  canonical _ _ _ := rfl
  minted _ _ ht := by cases ht

private theorem rekeyed (h : r.Sound) (ho : r.Registered o) {key : RuntimeKey Sid}
    (hmade : (r.object o).key.MadeBy r.draftCounter) : (r.rekeyed o key).Sound where
  keyed k p hp := by
    have hlt := (h.keyed _ _ ho).1
    rw [lookup_rekeyed] at hp
    rw [object_rekeyed, Registry.rekeyed, length_modify]
    split at hp
    · rename_i hk
      cases hp
      exact ⟨hlt, by rw [object_modify_self _ hlt, hk]⟩
    · split at hp
      · cases hp
      · rename_i hfrom
        obtain ⟨hplt, hkey⟩ := h.keyed k p hp
        have hpo : p ≠ o := by
          rintro rfl
          exact hfrom hkey.symm
        exact ⟨hplt, by rw [object_modify_ne _ hpo, hkey]⟩
  targets a t ht := by
    rw [alias_rekeyed] at ht
    rw [lookup_rekeyed]
    split at ht
    · cases ht
    · split at ht
      · cases ht
        exact ⟨o, if_pos rfl⟩
      · obtain ⟨t', ht', htt⟩ := Option.map_eq_some_iff.mp ht
        split at htt
        · exact ⟨o, if_pos htt.symm⟩
        · rename_i hne
          subst htt
          split
          · exact ⟨o, rfl⟩
          · exact h.targets a t' ht'
  canonical k p hp := by
    rw [lookup_rekeyed] at hp
    rw [alias_rekeyed]
    split
    · rfl
    · rename_i hk
      rw [if_neg hk] at hp
      split
      · rename_i hfrom
        rw [if_pos hfrom] at hp
        cases hp
      · rename_i hfrom
        rw [if_neg hfrom] at hp
        rw [h.canonical k p hp]
        rfl
  minted n t ht := by
    rw [alias_rekeyed] at ht
    split at ht
    · cases ht
    · split at ht
      · rename_i hfrom
        rw [← hfrom] at hmade
        exact hmade
      · obtain ⟨t', ht', -⟩ := Option.map_eq_some_iff.mp ht
        exact h.minted n t' ht'

omit [Inhabited Data] in
theorem active_delete (ha : r.Active) (hk : r.activeKey ≠ k) : (r.delete k).Active := by
  obtain ⟨o, ho⟩ := ha
  exact ⟨o, (AList.lookup_erase_ne hk).trans ho⟩

private theorem evictUntil (cap : Nat) (os : List Nat) (h : r.Sound) (ha : r.Active)
    (hos : ∀ o ∈ os, (r.object o).key ≠ r.activeKey) :
    (Registry.evictUntil cap r os).Sound ∧ (Registry.evictUntil cap r os).Active := by
  induction os generalizing r with
  | nil => exact ⟨h, ha⟩
  | cons o os ih =>
    rw [Registry.evictUntil]
    split
    · exact ⟨h, ha⟩
    · have hne := hos o List.mem_cons_self
      exact ih (h.delete _) (active_delete ha hne.symm) fun o' ho' => hos o' (List.mem_cons_of_mem o ho')

end Sound

private theorem mem_candidates : o ∈ r.candidates ↔ o ∈ r.listRuntimes ∧ (r.object o).key ≠ r.activeKey ∧
    (r.object o).isStreaming = false ∧ (r.object o).awaitsPermission = false ∧ (r.object o).awaitsAnswer = false := by
  rw [candidates, List.mem_insertionSort, List.mem_filter]
  simp [and_assoc]

omit [Inhabited Data] in
theorem mem_listRuntimes : o ∈ r.listRuntimes ↔ ∃ k, r.runtimes.lookup k = some o := by
  rw [listRuntimes, List.mem_reverse, Dict.mem_values]

namespace Sound

private theorem evictIfNeeded (h : r.Sound) (ha : r.Active) (cap : Nat) :
    (r.evictIfNeeded cap).Sound ∧ (r.evictIfNeeded cap).Active :=
  Sound.evictUntil cap _ h ha fun _ ho => (mem_candidates.mp ho).2.1

private theorem removeRuntime (h : r.Sound) (ha : r.Active) (key : RuntimeKey Sid) :
    (r.removeRuntime key).Sound ∧ (r.removeRuntime key).Active := by
  unfold Registry.removeRuntime
  dsimp only
  split
  · split
    · exact (h.delete _).newDraftRuntime
    · rename_i hne
      exact ⟨h.delete _, active_delete ha hne⟩
  · exact ⟨h, ha⟩

private theorem rekeyOnto (h : r.Sound) (ha : r.Active) (oldKey key : RuntimeKey Sid)
    (hminted : r.Minted (.rekeyRuntime oldKey key)) :
    (r.rekeyOnto oldKey key).Sound ∧ (r.rekeyOnto oldKey key).Active := by
  unfold Registry.rekeyOnto
  split
  · exact ⟨h, ha⟩
  · rename_i o ho
    split
    · exact ⟨h, ha⟩
    · have hregistered : r.Registered o := by
        rw [Registered, (h.keyed _ _ ho).2]
        exact ho
      refine ⟨h.rekeyed hregistered (hminted o ho), ?_⟩
      obtain ⟨p, hp⟩ := ha
      unfold Active
      rw [lookup_rekeyed]
      change ∃ p, (if (if r.activeKey = (r.object o).key then key else r.activeKey) = key then _ else
        if (if r.activeKey = (r.object o).key then key else r.activeKey) = (r.object o).key then none
        else r.runtimes.lookup (if r.activeKey = (r.object o).key then key else r.activeKey)) = some p
      by_cases hfrom : r.activeKey = (r.object o).key
      · rw [if_pos hfrom, if_pos rfl]
        exact ⟨o, rfl⟩
      · rw [if_neg hfrom, if_neg hfrom]
        split
        · exact ⟨o, rfl⟩
        · exact ⟨p, hp⟩

private theorem apply (h : r.Sound) (ha : r.Active) {op : RegistryOp Sid Data} (hminted : r.Minted op) :
    (r.apply op).Sound ∧ (r.apply op).Active := by
  cases op with
  | ensureRuntime key => exact ⟨h.ensureRuntime key, active_ensureRuntime ha key⟩
  | getSlice key => exact ⟨h.ensureRuntime key, active_ensureRuntime ha key⟩
  | setActiveKey key => exact h.setActiveKey key
  | newDraftRuntime => exact h.newDraftRuntime
  | rekeyRuntime oldKey key => exact h.rekeyOnto ha oldKey key hminted
  | removeRuntime key => exact h.removeRuntime ha key
  | evictIfNeeded cap => exact h.evictIfNeeded ha cap
  | resetAllRuntimes => exact (Sound.empty r).newDraftRuntime
  | write o f => exact ⟨h.modify o fun _ => rfl, ha⟩
  | clock now => exact ⟨⟨h.keyed, h.targets, h.canonical, h.minted⟩, ha⟩

end Sound

def Stored (r : Registry Sid Data) (o : Nat) : Prop := ∃ k, r.runtimes.lookup k = some o

instance (r : Registry Sid Data) (o : Nat) : Decidable (r.Stored o) :=
  decidable_of_iff (o ∈ r.listRuntimes) mem_listRuntimes

def Reserves (r : Registry Sid Data) (k : RuntimeKey Sid) (o : Nat) : RegistryOp Sid Data → Prop
  | .rekeyRuntime oldKey key => key = k → ∀ p ∈ r.getRuntime oldKey, p = o
  | _ => True

instance (r : Registry Sid Data) (k : RuntimeKey Sid) (o : Nat) : DecidablePred (r.Reserves k o) := fun call => by
  cases call <;> dsimp only [Registry.Reserves] <;> infer_instance

/-- The operation leaves the runtime in the registry, and puts no other one under the key. -/
def Spares (r : Registry Sid Data) (k : RuntimeKey Sid) (o : Nat) (op : RegistryOp Sid Data) : Prop :=
  (r.apply op).Stored o ∧ r.Reserves k o op

instance (r : Registry Sid Data) (k : RuntimeKey Sid) (o : Nat) : DecidablePred (r.Spares k o) :=
  fun _ => inferInstanceAs (Decidable (_ ∧ _))

private theorem Grows.getRuntime {r' : Registry Sid Data} (h : Grows r r')
    (hk : r.getRuntime k = some o) : r'.getRuntime k = some o := by
  have hsame : r'.resolveKey k = r.resolveKey k := by rw [resolveKey, h.aliases, resolveKey]
  rw [Registry.getRuntime, hsame]
  exact h.found _ _ hk

namespace Sound

variable {k : RuntimeKey Sid} {o : Nat}

private theorem lookup_of_stored (h : r.Sound) (hk : r.Stored o) : r.runtimes.lookup (r.object o).key = some o := by
  obtain ⟨k, hk⟩ := hk
  rw [(h.keyed k o hk).2]
  exact hk

omit [Inhabited Data] in
theorem stored_of_getRuntime (hk : r.getRuntime k = some o) : r.Stored o := ⟨_, hk⟩

theorem getRuntime_delete (h : r.Sound) {c : RuntimeKey Sid} (hk : r.getRuntime k = some o) (hc : (r.object o).key ≠ c) :
    (r.delete c).getRuntime k = some o := by
  have hkey := (h.keyed _ _ hk).2
  have hne : r.resolveKey k ≠ c := fun hc' => hc (hkey.trans hc')
  have hsame : (r.delete c).resolveKey k = r.resolveKey k := by
    rw [(h.delete c).resolveKey_eq]
    cases halias : r.keyAliases.lookup k with
    | none =>
      have hnone : (r.delete c).keyAliases.lookup k = none := by
        rw [Option.eq_none_iff_forall_ne_some]
        intro t ht
        exact absurd (halias.symm.trans (Dict.lookup_popValue.mp ht).1) (by simp)
      rw [hnone, h.resolveKey_of_none halias]
      rfl
    | some t =>
      have ht := h.resolveKey_of_alias halias
      have hsome : (r.delete c).keyAliases.lookup k = some t := Dict.lookup_popValue.mpr ⟨halias, ht ▸ hne⟩
      rw [hsome, ht]
      rfl
  rw [Registry.getRuntime, hsame]
  exact (AList.lookup_erase_ne hne).trans hk

private theorem key_ne_of_stored_delete (h : r.Sound) {c : RuntimeKey Sid} (hs : (r.delete c).Stored o) :
    r.Stored o ∧ (r.object o).key ≠ c := by
  obtain ⟨k, hk⟩ := hs
  have hne : k ≠ c := by
    rintro rfl
    rw [Registry.delete, AList.lookup_erase] at hk
    cases hk
  rw [Registry.delete, AList.lookup_erase_ne hne] at hk
  exact ⟨⟨k, hk⟩, (h.keyed k o hk).2 ▸ hne⟩

private theorem stored_of_stored_evictUntil (h : r.Sound) {cap : Nat} {os : List Nat}
    (hs : (Registry.evictUntil cap r os).Stored o) : r.Stored o := by
  induction os generalizing r with
  | nil => exact hs
  | cons p os ih =>
    rw [Registry.evictUntil] at hs
    split at hs
    · exact hs
    · exact (h.key_ne_of_stored_delete (ih (h.delete _) hs)).1

private theorem getRuntime_evictUntil (h : r.Sound) {cap : Nat} {os : List Nat} (hk : r.getRuntime k = some o)
    (hs : (Registry.evictUntil cap r os).Stored o) : (Registry.evictUntil cap r os).getRuntime k = some o := by
  induction os generalizing r with
  | nil => exact hk
  | cons p os ih =>
    rw [Registry.evictUntil] at hs ⊢
    split at hs
    · rename_i hle
      rw [if_pos hle]
      exact hk
    · rename_i hgt
      rw [if_neg hgt]
      have hstored := (h.delete _).stored_of_stored_evictUntil hs
      exact ih (h.delete _) (h.getRuntime_delete hk (h.key_ne_of_stored_delete hstored).2) hs

private theorem newDraftRuntime_eq (h : r.Sound) :
    r.newDraftRuntime.runtimes = r.runtimes.set (.draft (r.draftCounter + 1)) r.objects.length ∧
      r.newDraftRuntime.keyAliases = r.keyAliases := by
  have hregistered := h.counted.register h.draft_fresh
  have hfound : (({ r with draftCounter := r.draftCounter + 1 } : Registry Sid Data).register
      (.draft (r.draftCounter + 1))).getRuntime (.draft (r.draftCounter + 1)) = some r.objects.length := by
    apply hregistered.getRuntime_of_lookup
    rw [Registry.register, Dict.lookup_set, if_pos rfl]
  unfold Registry.newDraftRuntime Registry.setActiveKey Registry.ensureRuntime
  dsimp only
  rw [hfound]
  exact ⟨rfl, rfl⟩

theorem getRuntime_newDraftRuntime (h : r.Sound) (hk : r.getRuntime k = some o) (hs : r.newDraftRuntime.Stored o) :
    r.newDraftRuntime.getRuntime k = some o := by
  obtain ⟨hruntimes, haliases⟩ := h.newDraftRuntime_eq
  obtain ⟨hlt, hkey⟩ := h.keyed _ _ hk
  have hsame : r.newDraftRuntime.resolveKey k = r.resolveKey k := by rw [resolveKey, haliases, resolveKey]
  have hnot : r.resolveKey k ≠ .draft (r.draftCounter + 1) := by
    intro hd
    obtain ⟨k', hk'⟩ := hs
    rw [hruntimes, Dict.lookup_set] at hk'
    split at hk'
    · cases hk'
      exact absurd hlt (Nat.lt_irrefl _)
    · rename_i hne
      exact hne ((h.keyed k' o hk').2.symm.trans (hkey.trans hd))
  rw [Registry.getRuntime, hsame, hruntimes, Dict.lookup_set, if_neg hnot]
  exact hk

theorem stored_of_stored_newDraftRuntime (h : r.Sound) (ho : o < r.objects.length) (hs : r.newDraftRuntime.Stored o) :
    r.Stored o := by
  obtain ⟨k', hk'⟩ := hs
  rw [h.newDraftRuntime_eq.1, Dict.lookup_set] at hk'
  split at hk'
  · cases hk'
    exact absurd ho (Nat.lt_irrefl _)
  · exact ⟨k', hk'⟩

private theorem getRuntime_removeRuntime (h : r.Sound) (hk : r.getRuntime k = some o) {key : RuntimeKey Sid}
    (hs : (r.removeRuntime key).Stored o) : (r.removeRuntime key).getRuntime k = some o := by
  have hlt := (h.keyed _ _ hk).1
  unfold Registry.removeRuntime at hs ⊢
  dsimp only at hs ⊢
  split at hs
  · rename_i hstored
    rw [if_pos hstored]
    split at hs
    · rename_i hactive
      rw [if_pos hactive]
      have hleft := (h.delete _).stored_of_stored_newDraftRuntime hlt hs
      have hfound := h.getRuntime_delete hk (h.key_ne_of_stored_delete hleft).2
      exact (h.delete _).getRuntime_newDraftRuntime hfound hs
    · rename_i hactive
      rw [if_neg hactive]
      exact h.getRuntime_delete hk (h.key_ne_of_stored_delete hs).2
  · rename_i hnone
    rw [if_neg hnone]
    exact hk

private theorem getRuntime_rekeyed (h : r.Sound) {p : Nat} {key : RuntimeKey Sid} (hp : r.Registered p)
    (hmade : (r.object p).key.MadeBy r.draftCounter) (hne : (r.object p).key ≠ key)
    (hk : r.getRuntime k = some o) (hspare : k = key → p = o) (hs : (r.rekeyed p key).Stored o) :
    (r.rekeyed p key).getRuntime k = some o := by
  have hsound : (r.rekeyed p key).Sound := h.rekeyed hp hmade
  have hkey := (h.keyed _ _ hk).2
  -- an object that gives way to the one that moves is no longer stored
  have hstays : r.resolveKey k = key → p = o := by
    intro hto
    obtain ⟨k', hk'⟩ := hs
    rw [lookup_rekeyed] at hk'
    split at hk'
    · cases hk'
      rfl
    · rename_i hk'ne
      split at hk'
      · cases hk'
      · exact absurd ((h.keyed k' o hk').2.symm.trans (hkey.trans hto)) hk'ne
  have hmoved : r.resolveKey k = (r.object p).key → p = o := by
    intro hfrom
    have hfound : r.runtimes.lookup (r.resolveKey k) = some o := hk
    rw [hfrom] at hfound
    exact Option.some.inj (hp.symm.trans hfound)
  rw [Registry.getRuntime, hsound.resolveKey_eq, alias_rekeyed]
  by_cases hto : k = key
  · rw [if_pos hto, Option.getD_none, hto, lookup_rekeyed, if_pos rfl, hspare hto]
  · rw [if_neg hto]
    by_cases hfrom : k = (r.object p).key
    · have hresolved : r.resolveKey k = (r.object p).key := by
        rw [hfrom, h.resolveKey_of_none (h.canonical _ _ hp)]
      rw [if_pos hfrom, Option.getD_some, lookup_rekeyed, if_pos rfl, hmoved hresolved]
    · rw [if_neg hfrom]
      cases halias : r.keyAliases.lookup k with
      | none =>
        have hresolved := h.resolveKey_of_none halias
        rw [Option.map_none, Option.getD_none, lookup_rekeyed, if_neg hto, if_neg hfrom, ← hresolved]
        exact hk
      | some t =>
        have hresolved := h.resolveKey_of_alias halias
        rw [hresolved] at hstays hmoved
        rw [Option.map_some, Option.getD_some]
        by_cases ht : t = (r.object p).key
        · rw [if_pos ht, lookup_rekeyed, if_pos rfl, hmoved ht]
        · rw [if_neg ht, lookup_rekeyed]
          by_cases htk : t = key
          · rw [if_pos htk, hstays htk]
          · rw [if_neg htk, if_neg ht, ← hresolved]
            exact hk

theorem getRuntime_apply (h : r.Sound) {op : RegistryOp Sid Data} (hminted : r.Minted op) (hspares : Spares r k o op)
    (hk : r.getRuntime k = some o) : (r.apply op).getRuntime k = some o := by
  obtain ⟨hs, hspare⟩ := hspares
  cases op with
  | ensureRuntime key => exact (Grows.ensureRuntime key).getRuntime hk
  | getSlice key => exact (Grows.ensureRuntime key).getRuntime hk
  | setActiveKey key => exact (Grows.setActiveKey key).getRuntime hk
  | newDraftRuntime => exact h.getRuntime_newDraftRuntime hk hs
  | removeRuntime key => exact h.getRuntime_removeRuntime hk hs
  | evictIfNeeded cap => exact h.getRuntime_evictUntil hk hs
  | write p f => exact hk
  | clock now => exact hk
  | resetAllRuntimes =>
    obtain ⟨k', hk'⟩ := (Sound.empty r).stored_of_stored_newDraftRuntime (h.keyed _ _ hk).1 hs
    cases hk'
  | rekeyRuntime oldKey key =>
    change (r.rekeyOnto oldKey key).Stored o at hs
    change (r.rekeyOnto oldKey key).getRuntime k = some o
    unfold Registry.rekeyOnto at hs ⊢
    cases hp : r.getRuntime oldKey with
    | none => exact hk
    | some p =>
      rw [hp] at hs
      dsimp only at hs ⊢
      split at hs
      · rename_i hsame
        rw [if_pos hsame]
        exact hk
      · rename_i hne
        rw [if_neg hne]
        have hregistered : r.Registered p := by
          rw [Registered, (h.keyed _ _ hp).2]
          exact hp
        refine h.getRuntime_rekeyed hregistered (hminted p hp) hne hk ?_ hs
        intro hkey
        exact hspare hkey.symm p hp

end Sound

/-- Not the active runtime, and nothing is going on in it or waits for a decision. -/
structure Idle (r : Registry Sid Data) (o : Nat) : Prop where
  inactive : (r.object o).key ≠ r.activeKey
  settled : (r.object o).isStreaming = false
  permitted : (r.object o).awaitsPermission = false
  answered : (r.object o).awaitsAnswer = false

/-- What an eviction takes is idle, and was not active after anything idle that it leaves. -/
def EvictsIdle (r : Registry Sid Data) (cap : Nat) : Prop :=
  ∀ o, r.Stored o → ¬ (r.evictIfNeeded cap).Stored o → r.Idle o ∧
    ∀ o', r.Idle o' → (r.evictIfNeeded cap).Stored o' → (r.object o).lastActiveAt ≤ (r.object o').lastActiveAt

theorem evictedUntil_isPrefix (cap : Nat) (os : List Nat) (r : Registry Sid Data) : evictedUntil cap r os <+: os := by
  induction os generalizing r with
  | nil => exact List.nil_prefix
  | cons o os ih =>
    rw [evictedUntil]
    split
    · exact List.nil_prefix
    · exact List.cons_prefix_cons.mpr ⟨rfl, ih _⟩

namespace Sound

variable {o : Nat} {os : List Nat} {cap : Nat}

theorem mem_evictedUntil (h : r.Sound) (hos : ∀ p ∈ os, ∀ q, r.runtimes.lookup (r.object p).key = some q → q = p)
    (hs : r.Stored o) (hgone : ¬ (Registry.evictUntil cap r os).Stored o) : o ∈ evictedUntil cap r os := by
  induction os generalizing r with
  | nil => exact absurd hs hgone
  | cons p os ih =>
    rw [Registry.evictUntil] at hgone
    rw [evictedUntil]
    split at hgone
    · exact absurd hs hgone
    · rename_i hgt
      rw [if_neg hgt]
      by_cases ho : o = p
      · rw [ho]
        exact List.mem_cons_self
      · refine List.mem_cons_of_mem p (ih (h.delete _) ?_ ?_ hgone)
        · intro p' hp' q hq
          refine hos p' (List.mem_cons_of_mem p hp') q ?_
          have hne : (r.object p').key ≠ (r.object p).key := by
            intro hsame
            have hdeleted : (r.delete (r.object p).key).runtimes.lookup (r.object p').key = none := by
              rw [hsame]
              exact AList.lookup_erase _ _
            exact absurd (hdeleted.symm.trans hq) (by simp)
          exact (AList.lookup_erase_ne hne).symm.trans hq
        · have hkey := h.lookup_of_stored hs
          have hne : (r.object o).key ≠ (r.object p).key := by
            intro hsame
            rw [hsame] at hkey
            exact ho (hos p List.mem_cons_self o hkey)
          exact ⟨(r.object o).key, (AList.lookup_erase_ne hne).trans hkey⟩

private theorem not_stored_of_mem_evictedUntil (h : r.Sound) (ho : o ∈ evictedUntil cap r os) :
    ¬ (Registry.evictUntil cap r os).Stored o := by
  induction os generalizing r with
  | nil => cases ho
  | cons p os ih =>
    rw [evictedUntil] at ho
    rw [Registry.evictUntil]
    split at ho
    · cases ho
    · rename_i hgt
      rw [if_neg hgt]
      rcases List.mem_cons.mp ho with rfl | ho
      · intro hs
        have hleft := (h.delete _).stored_of_stored_evictUntil hs
        exact (h.key_ne_of_stored_delete hleft).2 rfl
      · exact ih (h.delete _) ho

private theorem evictsIdle (h : r.Sound) (cap : Nat) : r.EvictsIdle cap := by
  intro o hs hgone
  have hos : ∀ p ∈ r.candidates, ∀ q, r.runtimes.lookup (r.object p).key = some q → q = p := by
    intro p hp q hq
    have hkey := h.lookup_of_stored (mem_listRuntimes.mp (mem_candidates.mp hp).1)
    exact Option.some.inj (hq.symm.trans hkey)
  obtain ⟨kept, hkept⟩ := evictedUntil_isPrefix cap r.candidates r
  have ho := h.mem_evictedUntil hos hs hgone
  have hcandidate : o ∈ r.candidates := hkept ▸ List.mem_append_left kept ho
  obtain ⟨-, hidle⟩ := mem_candidates.mp hcandidate
  refine ⟨⟨hidle.1, hidle.2.1, hidle.2.2.1, hidle.2.2.2⟩, ?_⟩
  intro o' hidle' hs'
  have ho' : o' ∈ r.candidates := by
    refine mem_candidates.mpr ⟨mem_listRuntimes.mpr (h.stored_of_stored_evictUntil hs'), ?_⟩
    exact ⟨hidle'.inactive, hidle'.settled, hidle'.permitted, hidle'.answered⟩
  have hleft : o' ∈ kept := by
    rw [← hkept, List.mem_append] at ho'
    exact ho'.resolve_left fun hmem => h.not_stored_of_mem_evictedUntil hmem hs'
  have hsorted : r.candidates.Pairwise fun a b => (r.object a).lastActiveAt ≤ (r.object b).lastActiveAt := by
    have : Std.Total fun a b => (r.object a).lastActiveAt ≤ (r.object b).lastActiveAt := ⟨fun a b => Nat.le_total _ _⟩
    have : IsTrans Nat fun a b => (r.object a).lastActiveAt ≤ (r.object b).lastActiveAt := ⟨fun _ _ _ => Nat.le_trans⟩
    exact List.pairwise_insertionSort _ _
  rw [← hkept] at hsorted
  exact (List.pairwise_append.mp hsorted).2.2 o ho o' hleft

end Sound

private theorem sound_init : (init : Registry Sid Data).Sound ∧ (init : Registry Sid Data).Active := by
  have hdraft : (init : Registry Sid Data).runtimes.lookup (.draft 1) = some 0 := List.dlookup_cons_eq ..
  refine ⟨⟨consistent_init.keyed, fun _ _ ht => ?_, fun _ _ _ => rfl, fun _ _ ht => ?_⟩, 0, hdraft⟩
  · cases ht
  · cases ht

private theorem sound_run {s s' : Registry Sid Data} (h : s.Sound ∧ s.Active) {ops : List (RegistryOp Sid Data)}
    (hminted : RunMeets step Minted s ops) (hrun : run step s ops = some s') : s'.Sound ∧ s'.Active := by
  have hstep : ∀ (s : Registry Sid Data) op s', s.Sound ∧ s.Active → s.Minted op → step s op = some s' →
      s'.Sound ∧ s'.Active := by
    intro s op s' hi hm hs
    cases hs
    exact hi.1.apply hi.2 hm
  exact run_invariant hstep h hminted hrun

/-- As long as no runtime leaves the key of a draft that has not been made, the registry is well-formed and evicts
what is idle, and a runtime that was rekeyed is found under the keys it had for as long as it is in the registry
and no other runtime is rekeyed onto them. -/
theorem wellFormed_along_run {ops : List (RegistryOp Sid Data)} {r : Registry Sid Data}
    (hrun : run step init ops = some r) (hminted : RunMeets step Minted init ops) :
    r.WellFormed ∧ (∀ cap, r.EvictsIdle cap) ∧
      ∀ oldKey key o, r.getRuntime oldKey = some o → r.Minted (.rekeyRuntime oldKey key) →
        ∀ former ∈ [oldKey, (r.object o).key], ∀ later r',
          run step (r.apply (.rekeyRuntime oldKey key)) later = some r' →
          RunMeets step (fun s op => s.Minted op ∧ s.Spares former o op) (r.apply (.rekeyRuntime oldKey key)) later →
          r'.getRuntime former = some o := by
  obtain ⟨hsound, hactive⟩ := sound_run sound_init hminted hrun
  refine ⟨hsound.wellFormed hactive, hsound.evictsIdle, ?_⟩
  intro oldKey key o ho hm former hformer later r' hlater hspares
  have hfound : r.getRuntime former = some o := by
    rcases List.mem_pair.mp hformer with rfl | rfl
    · exact ho
    · exact hsound.getRuntime_of_lookup (hsound.lookup_of_stored (Sound.stored_of_getRuntime ho))
  have hspares' : r.Spares former o (.rekeyRuntime oldKey key) := by
    constructor
    · change (r.rekeyOnto oldKey key).Stored o
      unfold rekeyOnto
      rw [ho]
      dsimp only
      split
      · exact Sound.stored_of_getRuntime ho
      · exact ⟨key, by rw [lookup_rekeyed, if_pos rfl]⟩
    · intro _ p hp
      exact Option.some.inj (hp.symm.trans ho)
  have hnext := hsound.apply hactive hm
  have hstart := hsound.getRuntime_apply hm hspares' hfound
  have hstep : ∀ (s : Registry Sid Data) op s', (s.Sound ∧ s.Active) ∧ s.getRuntime former = some o →
      s.Minted op ∧ s.Spares former o op → step s op = some s' →
        (s'.Sound ∧ s'.Active) ∧ s'.getRuntime former = some o := by
    intro s op s' hi hc hs
    cases hs
    exact ⟨hi.1.1.apply hi.1.2 hc.1, hi.1.1.getRuntime_apply hc.1 hc.2 hi.2⟩
  exact (run_invariant hstep ⟨hnext, hstart⟩ hspares hlater).2

/-- A registry without data in its slices -/
abbrev PlainRegistry : Type := Registry Nat Unit

/-- The registry of a new page after some operations -/
def after (ops : List (RegistryOp Nat Unit)) : PlainRegistry := ops.foldl apply init

/-- A draft becomes a session, and another one is opened. -/
def pageOps : List (RegistryOp Nat Unit) :=
  [.rekeyRuntime (.draft 1) (.session 7), .newDraftRuntime, .setActiveKey (.session 7)]

/-- It gets a new id, streams behind another draft while idle ones are evicted, and gets its first id back. -/
def recoveryOps : List (RegistryOp Nat Unit) :=
  [.write 0 fun rt => { rt with isStreaming := true }, .newDraftRuntime, .evictIfNeeded 1,
    .rekeyRuntime (.session 8) (.session 7)]

theorem wellFormed_pageOps : (after pageOps).WellFormed ∧
    (recoveryOps.foldl apply ((after pageOps).apply (.rekeyRuntime (.session 7) (.session 8)))).getRuntime (.session 7) =
      some 0 := by
  have hrun : run step init pageOps = some (after pageOps) := rfl
  obtain ⟨hwell, -, hkeeps⟩ := wellFormed_along_run hrun (by decide)
  exact ⟨hwell, hkeeps (.session 7) (.session 8) 0 (by decide) (by decide) _ List.mem_cons_self
    recoveryOps _ rfl (by decide)⟩

/-- A runtime leaves the key of the draft that is made next. -/
def earlyOps : List (RegistryOp Nat Unit) :=
  [.ensureRuntime (.draft 2), .rekeyRuntime (.draft 2) (.session 7), .newDraftRuntime]

/-- A session gets a new id, and another runtime gets its former one. -/
def formerOps : List (RegistryOp Nat Unit) := [.ensureRuntime (.session 7), .rekeyRuntime (.session 7) (.session 8)]

def takenOps : List (RegistryOp Nat Unit) := [.ensureRuntime (.session 9), .rekeyRuntime (.session 9) (.session 7)]

theorem not_wellFormed_along_run :
    ¬ (after earlyOps).WellFormed ∧ (after formerOps).getRuntime (.session 7) = some 1 ∧
      RunMeets step (fun s op => (s.apply op).Stored 1) (after formerOps) takenOps ∧
      (after (formerOps ++ takenOps)).getRuntime (.session 7) = some 2 := by
  refine ⟨fun h => ?_, by decide, by decide, by decide⟩
  have hstored : (after earlyOps).runtimes.lookup (.draft 2) = some 2 := by decide
  exact absurd (h.canonical _ _ hstored) (by decide)

end Registry

end PrivaCloud.Web
